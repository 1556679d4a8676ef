import RegexTree.Proofs.Yaml.Gap

/-!
# Plain scalars, read back

A text that is written plain is read as it stands, word by word, up to the end of its line (`readPlain_line`), and a key up to
the colon behind it (`readPlain_key`).
-/

namespace RegexTree.Yaml

/-- A word ends before white space, and before a colon with white space behind it. -/
def EndsWord (cs : List Char) : Prop := isGap (first cs) = true ∨ (first cs = ':' ∧ isGap (first (cs.drop 1)) = true)

/-- What ends a word as the writer sees it is a gap for the reader. -/
theorem isWordEnd_head? (cs : List Char) : isWordEnd cs.head? = isGap (first cs) := by
  cases cs <;> rfl

/-- The part of a text behind a beginning has no indicator inside when the text has none. -/
theorem hasInnerIndicator_right {cs ds : List Char} {previous : Char} (h : hasInnerIndicator previous (cs ++ ds) = false) :
    hasInnerIndicator (cs.getLastD previous) ds = false := by
  induction cs generalizing previous with
  | nil => exact h
  | cons c cs ih =>
    rw [List.cons_append, hasInnerIndicator] at h
    rw [List.getLastD_cons]
    exact ih (Bool.or_eq_false_iff.1 h).2

/-- A beginning of a text that ends with a word has no indicator inside when the text has none. -/
theorem hasInnerIndicator_left {cs ds : List Char} {previous : Char} (hd : isGap (first ds) = true)
    (h : hasInnerIndicator previous (cs ++ ds) = false) : hasInnerIndicator previous cs = false := by
  induction cs generalizing previous with
  | nil => rfl
  | cons c cs ih =>
    rw [List.cons_append, hasInnerIndicator, isWordEnd_head?] at h
    simp only [Bool.or_eq_false_iff] at h
    rw [hasInnerIndicator, isWordEnd_head?, ih h.2, Bool.or_false, h.1.2, Bool.or_false]
    cases cs with
    | nil =>
      have hc : c ≠ ':' := by simpa [hd] using h.1.1
      simp [hc]
    | cons d cs => exact h.1.1

/-- A word without an indicator inside is read up to its end. -/
theorem readPlainRun_word {w rest : List Char} {previous : Char} (hw : ∀ c ∈ w, isGap c = false)
    (hi : hasInnerIndicator previous w = false) (he : EndsWord rest) (p : Position) :
    readPlainRun false (glyphs p (w ++ rest)) = some (w, glyphs (p.afterAll w) rest) := by
  induction w generalizing previous p with
  | nil =>
    rw [List.nil_append, Position.afterAll_nil]
    cases rest with
    | nil => rfl
    | cons c rest =>
      rw [glyphs, readPlainRun]
      by_cases hg : isGap c = true
      · rw [if_pos (by simpa [Position.glyph] using hg)]
      · have hc := he.resolve_left hg
        simp only [first_cons, List.drop_succ_cons, List.drop_zero] at hc
        rw [if_neg (by simpa [Position.glyph] using hg), if_neg (by simp), if_pos]
        simp [Position.glyph, hc]
  | cons c w ih =>
    rw [List.forall_mem_cons] at hw
    rw [hasInnerIndicator, isWordEnd_head?] at hi
    simp only [Bool.or_eq_false_iff] at hi
    -- A colon does not end the word, since no gap follows it: the word goes on.
    have hc : (c == ':' && isGap (first (w ++ rest))) = false := by
      cases w with
      | nil =>
        have hc : c ≠ ':' := by simpa [first, isGap, isLineEnd] using hi.1.1
        simp [hc]
      | cons d w => exact hi.1.1
    rw [List.cons_append, glyphs, readPlainRun]
    simp [Position.glyph, hw.1, hc, ih hw.2 hi.2]

/-- A key is read up to the colon behind it. -/
theorem readPlain_key {key rest : List Char} (hk : ∀ c ∈ key, c.isAlpha = true) (hr : isGap (first rest) = true)
    (indent : Int) (p : Position) :
    readPlain false indent (glyphs p (key ++ ':' :: rest)) = some (key, false, glyphs (p.afterAll key) (':' :: rest)) := by
  have hg : ∀ c ∈ key, isGap c = false := fun c hc => notGap_of_beginsLine (by simp [beginsLine, hk c hc])
  have hi : ∀ previous, hasInnerIndicator previous key = false := by
    clear hg
    induction key with
    | nil => exact fun _ => rfl
    | cons c key ih =>
      rw [List.forall_mem_cons] at hk
      have h1 := ne_of_beginsLine (c := c) (d := ':') (by simp [beginsLine, hk.1]) (by decide)
      have h2 := ne_of_beginsLine (c := c) (d := '#') (by simp [beginsLine, hk.1]) (by decide)
      intro previous
      simp [hasInnerIndicator, h1, h2, ih hk.2]
  have hn : ∀ q : Position, glyphs q (':' :: rest) = q.glyph ':' :: glyphs (q.after ':') rest := fun _ => rfl
  rw [readPlain, readPlainRun_word hg (hi ' ') (show EndsWord (':' :: rest) from Or.inr ⟨rfl, hr⟩)]
  simp [hn, readPlainRest, peek, Position.glyph, isWhite, isBreak]

/-- What a text that is written plain is like behind a character: all its white space is spaces, of which none comes last, and
it has no indicator inside. -/
structure PlainFrom (previous : Char) (cs : List Char) : Prop where
  printable : Printable cs
  notBreak : ∀ c ∈ cs, isBreak c = false
  noIndicator : hasInnerIndicator previous cs = false
  last_ne : cs.getLast? ≠ some ' '

namespace PlainFrom

variable {previous : Char} {cs ds : List Char}

/-- What is left of the text behind a beginning is like it. -/
theorem right (h : PlainFrom previous (cs ++ ds)) : PlainFrom (cs.getLastD previous) ds where
  printable c hc := h.printable c (List.mem_append_right cs hc)
  notBreak c hc := h.notBreak c (List.mem_append_right cs hc)
  noIndicator := hasInnerIndicator_right h.noIndicator
  last_ne hl := h.last_ne (by rw [List.getLast?_append, hl, Option.some_or])

/-- The white space of the text is spaces. -/
theorem eq_space (h : PlainFrom previous cs) {c : Char} (hc : c ∈ cs) (hg : isGap c = true) : c = ' ' := by
  have ht := ne_of_isPrintable (d := '\t') (h.printable c hc) (by decide)
  have he := ne_of_isPrintable (d := endMark) (h.printable c hc) (by decide)
  simpa [isGap, isLineEnd, isWhite, h.notBreak c hc, ht, he] using hg

/-- Behind spaces the text goes on, and not with a number sign. -/
theorem exists_cons (h : PlainFrom previous (cs ++ ds)) (hne : cs ≠ []) (hs : ∀ c ∈ cs, c = ' ') :
    ∃ c ds', ds = c :: ds' ∧ c ≠ '#' := by
  have hl : cs.getLast? = some ' ' := by
    rw [List.getLast?_eq_some_getLast hne, hs _ (List.getLast_mem hne)]
  cases ds with
  | nil => exact absurd (by rw [List.append_nil, hl]) h.last_ne
  | cons c ds =>
    refine ⟨c, ds, rfl, ?_⟩
    rintro rfl
    have hi := h.right.noIndicator
    rw [List.getLastD_eq_getLast?, hl] at hi
    cases hi

end PlainFrom

/-- Behind a plain text the line ends, and reading stops at the next line, which begins further out. -/
theorem readPlainRest_end {n : Nat} {rest : List Char} (hr : Resumes n rest) (p : Position) :
    ∃ q : Position, q.column = indentation rest ∧ ∀ fuel, 0 < fuel →
      readPlainRest false (n + 1) fuel (glyphs p ('\n' :: rest)) = some ([], true, glyphs q (content rest)) := by
  have hb : ∀ c ∈ ['\n'], isBreak c = true := List.all_eq_true.1 (by decide)
  have hi := readInterval_breaks (List.cons_ne_nil _ _) hb (indentation rest) hr.content (n + 1) p
  rw [spaces_append_content] at hi
  have hc := column_line (List.cons_ne_nil _ _) hb (indentation rest) p
  have hn : (indentation rest : Int) < n + 1 := by have := hr.1; omega
  refine ⟨_, hc, fun fuel hf => ?_⟩
  obtain ⟨fuel, rfl⟩ : ∃ k, fuel = k + 1 := ⟨fuel - 1, by omega⟩
  rw [readPlainRest, if_pos (by rw [peek_glyphs]; rfl)]
  simp only [List.cons_append, List.nil_append] at hi hc
  simp only [List.cons_append, List.nil_append, hi, columnOf_glyphs, hc, Interval.isBroken, bind, Option.bind]
  simp [hn]

/-- Spaces before a word of the same line belong to a plain text. -/
theorem readPlainRest_spaces {g tail run more : List Char} {c : Char} (hne : g ≠ []) (hs : ∀ d ∈ g, d = ' ')
    (hc : isGap c = false) (hns : c ≠ '#') {n fuel : Nat} {p : Position} (hcol : n < (p.afterAll g).column)
    {gs gs' : List Glyph} {isBroken : Bool} (hrun : readPlainRun false (glyphs (p.afterAll g) (c :: tail)) = some (run, gs))
    (hrn : run ≠ []) (hmore : readPlainRest false (n + 1) fuel gs = some (more, isBroken, gs')) :
    readPlainRest false (n + 1) (fuel + 1) (glyphs p (g ++ c :: tail)) = some (g ++ run ++ more, isBroken, gs') := by
  have hfirst : first (g ++ c :: tail) = ' ' := by
    rw [first_append hne]
    obtain ⟨d, g, rfl⟩ := List.exists_cons_of_ne_nil hne
    exact hs d (by simp)
  have hw : isWhite c = false ∧ isBreak c = false := ⟨notWhite_of_notGap hc, notBreak_of_notGap hc⟩
  have hdoc : isAtDocumentLine (glyphs (p.afterAll g) (c :: tail)) = false := by
    simp [isAtDocumentLine, isDocumentLine, show (p.afterAll g).column ≠ 0 by omega]
  have hin : ¬((p.afterAll g).column : Int) < n + 1 := by omega
  rw [readPlainRest, if_pos (by rw [peek_glyphs, hfirst]; rfl), readInterval_spaces hs (c :: tail) hw]
  simp only [bind, Option.bind, columnOf_glyphs, peek_glyphs, first_cons, hdoc, hrun]
  simp [hin, hns, hrn, hmore, Interval.fold]

/-- From a word on, the words of a plain text are read up to the end of the line: a first run of characters, and the rest. -/
theorem readPlain_words {n : Nat} {rest : List Char} (hr : Resumes n rest) {cs : List Char} (h : Words (fun c => !isGap c) cs)
    {previous : Char} (hp : PlainFrom previous cs) (p : Position) (hc : n < p.column) :
    ∃ run more p', cs = run ++ more ∧ (cs ≠ [] → isGap (first cs) = false → run ≠ []) ∧
      readPlainRun false (glyphs p (cs ++ '\n' :: rest)) = some (run, glyphs p' (more ++ '\n' :: rest)) ∧
      ∃ q : Position, q.column = indentation rest ∧ ∀ fuel, more.length < fuel →
        readPlainRest false (n + 1) fuel (glyphs p' (more ++ '\n' :: rest)) = some (more, true, glyphs q (content rest)) := by
  induction h generalizing previous p with
  | @word w hw =>
    simp only [Bool.not_eq_true'] at hw
    obtain ⟨q, hq, he⟩ := readPlainRest_end hr (p.afterAll w)
    exact ⟨w, [], p.afterAll w, by simp, fun h _ => h, readPlainRun_word hw hp.noIndicator (Or.inl rfl) p, q, hq, he⟩
  | @gap w g cs hw hne hg hcs h ih =>
    simp only [Bool.not_eq_true', Bool.not_eq_false'] at hw hg hcs
    have hs : ∀ c ∈ g, c = ' ' := fun c hc => hp.eq_space (by simp [hc]) (hg c hc)
    have hgap : ∀ ds, isGap (first (g ++ ds)) = true := by
      obtain ⟨d, g, rfl⟩ := List.exists_cons_of_ne_nil hne
      exact fun _ => hg d (by simp)
    obtain ⟨c, cs, rfl, hns⟩ := hp.right.exists_cons hne hs
    have hcol : n < ((p.afterAll w).afterAll g).column := by
      rw [← Position.afterAll_append, Position.afterAll_of_notBreak]
      · exact Nat.lt_add_right _ hc
      · intro d hd
        exact hp.notBreak d (by rw [← List.append_assoc]; exact List.mem_append_left _ hd)
    obtain ⟨run, more, p', hcut, hrun, hread, q, hq, hrest⟩ := ih hp.right.right _ hcol
    have hrn : run ≠ [] := hrun (List.cons_ne_nil c cs) (hcs c rfl)
    refine ⟨w, g ++ c :: cs, p.afterAll w, rfl, ?_, ?_, q, hq, fun fuel hf => ?_⟩
    · rintro - hwg rfl
      rw [List.nil_append, hgap] at hwg
      cases hwg
    · rw [List.append_assoc]
      refine readPlainRun_word hw (hasInnerIndicator_left (hgap _) hp.noIndicator) (Or.inl ?_) p
      rw [List.append_assoc]
      exact hgap _
    · -- The gap takes one of the fuel and is one character long at least.
      obtain ⟨fuel, rfl⟩ : ∃ k, fuel = k + 1 := ⟨fuel - 1, by omega⟩
      have hlen := congrArg List.length hcut
      have hg1 := List.length_pos_iff.2 hne
      simp only [List.length_append, List.length_cons] at hf hlen
      rw [List.cons_append] at hread
      rw [List.append_assoc, List.cons_append,
        readPlainRest_spaces hne hs (hcs c rfl) hns hcol hread hrn (hrest fuel (by omega)), hcut, List.append_assoc]

/-- A text that is written plain is read up to the end of its line. -/
theorem readPlain_line {cs : List Char} {previous : Char} (h : PlainFrom previous cs) {n : Nat} {rest : List Char}
    (hr : Resumes n rest) (p : Position) (hc : n < p.column) :
    ∃ q : Position, q.column = indentation rest ∧
      readPlain false (n + 1) (glyphs p (cs ++ '\n' :: rest)) = some (cs, true, glyphs q (content rest)) := by
  obtain ⟨run, more, p', rfl, -, hread, q, hq, hrest⟩ := readPlain_words hr (words _ cs) h p hc
  refine ⟨q, hq, ?_⟩
  rw [readPlain, hread]
  simp only [bind, Option.bind]
  rw [hrest _ (by simp only [length_glyphs, List.length_append]; omega)]
  rfl

/-- A text that may be written plain is plain from its beginning on. -/
theorem plainFrom_of_allowsPlain {cs : List Char} (h : allowsPlain cs = true) : PlainFrom ' ' cs := by
  simp only [allowsPlain, needsEscapes, Bool.not_eq_true', Bool.or_eq_false_iff, Bool.not_eq_false', List.all_eq_true,
    List.any_eq_false] at h
  obtain ⟨⟨⟨⟨⟨-, hp⟩, hb⟩, -⟩, hl⟩, hi⟩ := h
  refine ⟨hp, fun c hc => by simpa using hb c hc, ?_, ?_⟩
  · cases cs with
    | nil => rfl
    | cons c cs =>
      -- At the beginning an indicator is a leading one: a number sign is, and so is a colon before white space.
      simp only [hasIndicator, isLeadingIndicator, Bool.or_eq_false_iff] at hi
      have hc : c ≠ '#' := by
        rintro rfl
        cases hi.1.2.1
      have hcolon : (c == ':' && isWordEnd cs.head?) = false := by
        rw [Bool.and_eq_false_imp]
        intro he
        rw [beq_iff_eq.1 he] at hi
        exact (Bool.and_eq_false_imp.1 hi.1.2.2) rfl
      simp [hasInnerIndicator, hc, hcolon, hi.2]
  · intro hlast
    rw [hlast] at hl
    cases hl

end RegexTree.Yaml

import RegexTree.Proofs.Yaml.Escape

/-!
# Quoted scalars, read back

A text between quotes is written as words, where quotes are doubled or characters are escaped, and gaps between them: spaces, or
line breaks with an indentation behind them (`Between`). Whatever is written so is read as the text (`readQuoted_between`), and
both kinds of quotes write their texts so.
-/

namespace RegexTree.Yaml

/-- The quote that a quoted scalar stands in. -/
def quoteOf (single : Bool) : Char := if single then '\'' else '"'

/-- A character of a word between quotes, as it is written. -/
def quotedChar (single : Bool) (c : Char) : List Char :=
  if single then (if c == '\'' then ['\'', '\''] else [c]) else doubleQuotedChar c

/-- A character belongs to a word between quotes: between double quotes it does unless it is a space, since line breaks are
escaped there. -/
def isQuotedWord (single : Bool) (c : Char) : Bool := if single then isPrintable c && !isGap c else c != ' '

/-- A text as it stands between quotes. -/
inductive Between (single : Bool) : List Char → List Char → Prop
  | word {w : List Char} (hw : ∀ c ∈ w, isQuotedWord single c = true) : Between single w (w.flatMap (quotedChar single))
  | spaces {w g cs ds : List Char} (hw : ∀ c ∈ w, isQuotedWord single c = true) (hne : g ≠ []) (hg : ∀ c ∈ g, c = ' ')
      (hds : ds = [] ∨ isGap (first ds) = false) (h : Between single cs ds) :
      Between single (w ++ (g ++ cs)) (w.flatMap (quotedChar single) ++ (g ++ ds))
  | breaks {w g cs ds : List Char} {n : Nat} (hw : ∀ c ∈ w, isQuotedWord single c = true) (hne : g ≠ [])
      (hg : ∀ c ∈ g, isBreak c = true ∧ c ≠ '\n') (hn : 0 < n) (hds : ds = [] ∨ isGap (first ds) = false)
      (h : Between single cs ds) :
      Between single (w ++ (g ++ cs)) (w.flatMap (quotedChar single) ++ (g ++ (Yaml.spaces n ++ ds)))

/-! ## Words -/

/-- A character between double quotes stands for itself or is escaped. -/
theorem doubleQuotedChar_cases (c : Char) :
    (doubleQuotedChar c = [c] ∧ isPrintable c = true ∧ isBreak c = false ∧ c ≠ '"' ∧ c ≠ '\\') ∨
      doubleQuotedChar c = escape c := by
  unfold doubleQuotedChar
  split
  · exact Or.inr rfl
  · rename_i h
    simp only [Bool.or_eq_true, Bool.not_eq_true', beq_iff_eq, not_or, Bool.not_eq_false, Bool.not_eq_true] at h
    exact Or.inl ⟨rfl, h.1.1.1, h.1.1.2, h.1.2, h.2⟩

/-- A printable character that is neither a space nor a line break is no gap. -/
theorem notGap_of_isPrintable {c : Char} (hp : isPrintable c = true) (hb : isBreak c = false) (hs : c ≠ ' ') :
    isGap c = false := by
  have ht := ne_of_isPrintable (d := '\t') hp (by decide)
  have he := ne_of_isPrintable (d := endMark) hp (by decide)
  simp [isGap, isLineEnd, isWhite, hb, hs, ht, he]

/-- A character of a word is written with printable characters, none of which ends the word. -/
theorem quotedChar_spec {single : Bool} {c : Char} (h : isQuotedWord single c = true) :
    quotedChar single c ≠ [] ∧ ∀ d ∈ quotedChar single c, isPrintable d = true ∧ isGap d = false := by
  cases single with
  | true =>
    have hc : isPrintable c = true ∧ isGap c = false := by simpa [isQuotedWord] using h
    by_cases hq : c = '\''
    · subst hq
      refine ⟨by decide, fun d hd => ?_⟩
      have hd' : d = '\'' := by simpa [quotedChar] using hd
      rw [hd']
      exact hc
    · simp [quotedChar, hq, hc]
  | false =>
    rcases doubleQuotedChar_cases c with ⟨he, hp, hb, -, -⟩ | he
    · have hs : c ≠ ' ' := by simpa [isQuotedWord] using h
      simp [quotedChar, he, hp, notGap_of_isPrintable hp hb hs]
    · obtain ⟨body, hbody, -, hd⟩ := exists_escape c
      have hs : isGraphic '\\' = true := by decide
      simp only [quotedChar, he, hbody]
      refine ⟨by simp, fun d hd' => ?_⟩
      have hg : isGraphic d = true := (List.mem_cons.1 hd').elim (fun h => h ▸ hs) (hd d)
      exact ⟨isPrintable_of_isGraphic hg, notGap_of_isGraphic hg⟩

/-- A word is written with printable characters, none of which ends it, and with one for each of its own at least. -/
theorem quotedWord_spec {single : Bool} {w : List Char} (h : ∀ c ∈ w, isQuotedWord single c = true) :
    w.length ≤ (w.flatMap (quotedChar single)).length ∧
      ∀ d ∈ w.flatMap (quotedChar single), isPrintable d = true ∧ isGap d = false := by
  induction w with
  | nil => exact ⟨Nat.le_refl _, nofun⟩
  | cons c w ih =>
    rw [List.forall_mem_cons] at h
    obtain ⟨hl, hw⟩ := ih h.2
    obtain ⟨hne, hc⟩ := quotedChar_spec h.1
    have hpos := List.length_pos_iff.2 hne
    rw [List.flatMap_cons, List.length_append, List.length_cons]
    refine ⟨by omega, fun d hd => ?_⟩
    exact (List.mem_append.1 hd).elim (hc d) (hw d)

/-- A character of a word is read. -/
theorem readQuotedRun_char {single : Bool} {c : Char} (h : isQuotedWord single c = true) (fuel : Nat) (rest : List Char)
    (p : Position) :
    readQuotedRun single (fuel + 1) (glyphs p (quotedChar single c ++ rest)) =
      (readQuotedRun single fuel (glyphs (p.afterAll (quotedChar single c)) rest)).map
        fun r => (c :: r.1, r.2.1, r.2.2) := by
  cases single with
  | true =>
    have hc : isPrintable c = true ∧ isGap c = false := by simpa [isQuotedWord] using h
    by_cases hq : c = '\''
    · subst hq
      have hg : isGap '\'' = false := by decide
      simp only [quotedChar, beq_self_eq_true, if_true, List.cons_append, List.nil_append, glyphs, Position.afterAll_cons,
        Position.afterAll_nil]
      rw [readQuotedRun, if_neg (by simp [Position.glyph, hg]), if_pos (by simp [Position.glyph, peek])]
      simp only [List.drop_succ_cons, List.drop_zero]
      cases readQuotedRun true fuel (glyphs ((p.after '\'').after '\'') rest) <;> rfl
    · have hq' : (c == '\'') = false := by simp [hq]
      simp only [quotedChar, hq', if_true, Bool.false_eq_true, if_false, List.singleton_append, glyphs, Position.afterAll_cons,
        Position.afterAll_nil]
      rw [readQuotedRun, if_neg (by simp [Position.glyph, hc.2]), if_neg (by simp [Position.glyph, hq]),
        if_neg (by simp [Position.glyph, hq]), if_neg (by simp)]
      simp only [Position.glyph]
      cases readQuotedRun true fuel (glyphs (p.after c) rest) <;> rfl
  | false =>
    rcases doubleQuotedChar_cases c with ⟨he, hp, hb, hq, hs⟩ | he
    · have hg : isGap c = false := notGap_of_isPrintable hp hb (by simpa [isQuotedWord] using h)
      simp only [quotedChar, he, Bool.false_eq_true, if_false, List.singleton_append, glyphs, Position.afterAll_cons,
        Position.afterAll_nil]
      rw [readQuotedRun, if_neg (by simp [Position.glyph, hg]), if_neg (by simp), if_neg (by simp [Position.glyph, hq]),
        if_neg (by simp [Position.glyph, hs])]
      simp only [Position.glyph]
      cases readQuotedRun false fuel (glyphs (p.after c) rest) <;> rfl
    · obtain ⟨body, hbody, hne, hd⟩ := exists_escape c
      have hg : isGap '\\' = false := by decide
      have hread := readEscape_escape hbody rest (p.after '\\')
      have hnb : isBreak (peek (glyphs (p.after '\\') (body ++ rest))) = false := by
        obtain ⟨d, body, rfl⟩ := List.exists_cons_of_ne_nil hne
        simpa using notBreak_of_notGap (notGap_of_isGraphic (hd d (by simp)))
      simp only [quotedChar, he, hbody, Bool.false_eq_true, if_false, List.cons_append, glyphs, Position.afterAll_cons]
      rw [readQuotedRun, if_neg (by simp [Position.glyph, hg]), if_neg (by simp), if_neg (by simp [Position.glyph]),
        if_pos (by simp [Position.glyph]), if_neg (by rw [hnb]; decide), hread]
      simp only [bind, Option.bind]
      cases readQuotedRun false fuel (glyphs ((p.after '\\').afterAll body) rest) <;> rfl

/-- A run of characters between quotes ends before white space and before the closing quote, which is not doubled. -/
def EndsRun (single : Bool) (rest : List Char) : Prop :=
  isGap (first rest) = true ∨ (first rest = quoteOf single ∧ (single = true → first (rest.drop 1) ≠ '\''))

/-- A word between quotes is read up to its end. -/
theorem readQuotedRun_word {single : Bool} {w : List Char} (hw : ∀ c ∈ w, isQuotedWord single c = true) {rest : List Char}
    (he : EndsRun single rest) {fuel : Nat} (hf : w.length < fuel) (p : Position) :
    readQuotedRun single fuel (glyphs p (w.flatMap (quotedChar single) ++ rest)) =
      some (w, false, glyphs (p.afterAll (w.flatMap (quotedChar single))) rest) := by
  induction w generalizing fuel p with
  | nil =>
    obtain ⟨fuel, rfl⟩ : ∃ k, fuel = k + 1 := ⟨fuel - 1, by omega⟩
    rw [List.flatMap_nil, List.nil_append, Position.afterAll_nil]
    cases rest with
    | nil => rfl
    | cons c rest =>
      rw [glyphs, readQuotedRun]
      by_cases hg : isGap c = true
      · rw [if_pos (by simpa [Position.glyph] using hg)]
      · obtain ⟨hc, hn⟩ := he.resolve_left hg
        rw [if_neg (by simpa [Position.glyph] using hg), if_neg, if_pos (by simpa [Position.glyph, quoteOf] using hc)]
        simp only [Position.glyph, peek_glyphs, Bool.and_eq_true, beq_iff_eq, not_and]
        exact fun hs hq => hn hs.1 hq
  | cons c w ih =>
    obtain ⟨fuel, rfl⟩ : ∃ k, fuel = k + 1 := ⟨fuel - 1, by omega⟩
    rw [List.forall_mem_cons] at hw
    rw [List.flatMap_cons, List.append_assoc, readQuotedRun_char hw.1, ih hw.2 (by simpa using hf), Position.afterAll_append]
    rfl

/-! ## Texts -/

/-- What stands between quotes is printable. -/
theorem Between.printable {single : Bool} {cs ds : List Char} (h : Between single cs ds) : Printable ds := by
  have hspace : isPrintable ' ' = true := by decide
  have hbreak : ∀ c, isBreak c = true → isPrintable c = true := by
    intro c hc
    simp only [isBreak, Bool.or_eq_true, beq_iff_eq] at hc
    rcases hc with (rfl | rfl) | rfl <;> decide
  induction h with
  | word hw => exact fun d hd => ((quotedWord_spec hw).2 d hd).1
  | spaces hw _ hg _ _ ih =>
    intro d hd
    rcases List.mem_append.1 hd with hd | hd
    · exact ((quotedWord_spec hw).2 d hd).1
    · rcases List.mem_append.1 hd with hd | hd
      · rw [hg d hd, hspace]
      · exact ih d hd
  | breaks hw _ hg _ _ _ ih =>
    intro d hd
    rcases List.mem_append.1 hd with hd | hd
    · exact ((quotedWord_spec hw).2 d hd).1
    · rcases List.mem_append.1 hd with hd | hd
      · exact hbreak d (hg d hd).1
      · rcases List.mem_append.1 hd with hd | hd
        · rw [List.eq_of_mem_replicate hd, hspace]
        · exact ih d hd

/-- The text between quotes is no longer than what is written. -/
theorem Between.length_le {single : Bool} {cs ds : List Char} (h : Between single cs ds) : cs.length ≤ ds.length := by
  induction h with
  | word hw => exact (quotedWord_spec hw).1
  | spaces hw _ _ _ _ ih =>
    have := (quotedWord_spec hw).1
    simp only [List.length_append]
    omega
  | breaks hw _ _ _ _ _ ih =>
    have := (quotedWord_spec hw).1
    simp only [List.length_append]
    omega

/-- Neither white space nor a line break stands before a closing quote or a word. -/
theorem first_gap {single : Bool} {ds : List Char} (h : ds = [] ∨ isGap (first ds) = false) (rest : List Char) :
    isWhite (first (ds ++ quoteOf single :: rest)) = false ∧ isBreak (first (ds ++ quoteOf single :: rest)) = false := by
  cases ds with
  | nil => cases single <;> exact ⟨rfl, rfl⟩
  | cons d ds =>
    have hd := h.resolve_left (List.cons_ne_nil d ds)
    exact ⟨notWhite_of_notGap hd, notBreak_of_notGap hd⟩

/-- The breaks of a gap between quotes stand for themselves. -/
theorem fold_breaks {g : List Char} (hne : g ≠ []) (hg : ∀ c ∈ g, isBreak c = true ∧ c ≠ '\n') :
    Interval.fold ⟨[], g⟩ = g := by
  obtain ⟨c, g, rfl⟩ := List.exists_cons_of_ne_nil hne
  have hc := (hg c (by simp)).2
  unfold Interval.fold
  split
  · contradiction
  · exact absurd (by simp_all) hc
  · exact absurd (by simp_all) hc
  · rfl

/-- One round of reading between quotes reads a word, and then the closing quote or a gap with further rounds behind it. -/
theorem readQuoted_round {single : Bool} {w : List Char} (hw : ∀ c ∈ w, isQuotedWord single c = true) {tail : List Char}
    (he : EndsRun single tail) (hne : first tail ≠ endMark) (fuel : Nat) (p : Position) (hp : 0 < p.column) :
    readQuoted single (fuel + 1) (glyphs p (w.flatMap (quotedChar single) ++ tail)) =
      if first tail = quoteOf single then
        some (w, (glyphs (p.afterAll (w.flatMap (quotedChar single))) tail).drop 1)
      else do
        let (i, rest) ← readInterval 0 false (glyphs (p.afterAll (w.flatMap (quotedChar single))) tail)
        let (more, rest) ← readQuoted single fuel rest
        return (w ++ i.fold ++ more, rest) := by
  obtain ⟨hl, hd⟩ := quotedWord_spec hw
  have hfirst : first (w.flatMap (quotedChar single) ++ tail) ≠ endMark := by
    generalize w.flatMap (quotedChar single) = written at hd
    cases written with
    | nil => exact hne
    | cons d ds => exact ne_of_isPrintable (hd d (by simp)).1 (by decide)
  have hg : (!isAtDocumentLine (glyphs p (w.flatMap (quotedChar single) ++ tail)) &&
      first (w.flatMap (quotedChar single) ++ tail) != endMark) = true := by
    simp [isAtDocumentLine, isDocumentLine, show p.column ≠ 0 by omega, hfirst]
  have hfuel : w.length < (glyphs p (w.flatMap (quotedChar single) ++ tail)).length + 1 := by
    simp only [length_glyphs, List.length_append]
    omega
  have hrun := readQuotedRun_word hw he hfuel p
  rw [readQuoted]
  simp only [peek_glyphs, hg, guard, if_true, pure_bind, hrun, Option.bind_eq_bind, Option.bind_some, ← quoteOf.eq_1,
    beq_iff_eq]
  rfl

/-- What stands between quotes is read up to the closing one. Between single quotes no quote must follow that one. -/
theorem readQuoted_between {single : Bool} {cs ds : List Char} (h : Between single cs ds) {rest : List Char}
    (hr : first rest ≠ '\'') {fuel : Nat} (hf : cs.length < fuel) (p : Position) (hp : 0 < p.column) :
    readQuoted single fuel (glyphs p (ds ++ quoteOf single :: rest)) =
      some (cs, glyphs (p.afterAll (ds ++ [quoteOf single])) rest) := by
  induction h generalizing fuel p with
  | @word w hw =>
    obtain ⟨fuel, rfl⟩ : ∃ k, fuel = k + 1 := ⟨fuel - 1, by omega⟩
    have he : EndsRun single (quoteOf single :: rest) := Or.inr ⟨rfl, fun _ => hr⟩
    have hq : first (quoteOf single :: rest) = quoteOf single := rfl
    rw [readQuoted_round hw he (by cases single <;> simp [quoteOf, endMark]) fuel p hp, if_pos hq, Position.afterAll_append]
    rfl
  | @spaces w g cs ds hw hne hg hds h ih =>
    obtain ⟨fuel, rfl⟩ : ∃ k, fuel = k + 1 := ⟨fuel - 1, by omega⟩
    have hfirst : ∀ es, first (g ++ es) = ' ' := fun es => by
      obtain ⟨c, g, rfl⟩ := List.exists_cons_of_ne_nil hne
      exact hg c (by simp)
    have hcol : 0 < ((p.afterAll (w.flatMap (quotedChar single))).afterAll g).column := by
      have hnb : ∀ c ∈ w.flatMap (quotedChar single) ++ g, isBreak c = false := by
        intro c hc
        rcases List.mem_append.1 hc with hc | hc
        · exact notBreak_of_notGap ((quotedWord_spec hw).2 c hc).2
        · rw [hg c hc]
          decide
      rw [← Position.afterAll_append, Position.afterAll_of_notBreak _ hnb]
      exact Nat.add_pos_left hp _
    have hlen := List.length_pos_iff.2 hne
    simp only [List.length_append] at hf
    rw [List.append_assoc, List.append_assoc,
      readQuoted_round hw (Or.inl (by rw [hfirst]; rfl)) (by rw [hfirst]; decide) fuel p hp,
      if_neg (by rw [hfirst]; cases single <;> decide), readInterval_spaces hg _ (first_gap hds rest)]
    simp only [Option.bind_eq_bind, Option.bind_some]
    rw [ih (by omega) _ hcol]
    simp [Interval.fold]
  | @breaks w g cs ds n hw hne hg hn hds h ih =>
    obtain ⟨fuel, rfl⟩ : ∃ k, fuel = k + 1 := ⟨fuel - 1, by omega⟩
    have hb : ∀ c ∈ g, isBreak c = true := fun c hc => (hg c hc).1
    have hfirst : ∀ es, isBreak (first (g ++ es)) = true := fun es => by
      obtain ⟨c, g, rfl⟩ := List.exists_cons_of_ne_nil hne
      exact hb c (by simp)
    have hcol : 0 < ((p.afterAll (w.flatMap (quotedChar single))).afterAll (g ++ spaces n)).column := by
      rw [column_line hne hb]
      exact hn
    have hlen := List.length_pos_iff.2 hne
    simp only [List.length_append] at hf
    rw [List.append_assoc, List.append_assoc, List.append_assoc,
      readQuoted_round hw (Or.inl (isGap_of_isBreak (hfirst _))) (ne_of_isBreak (hfirst _) (by decide)) fuel p hp,
      if_neg (ne_of_isBreak (hfirst _) (by cases single <;> decide)), readInterval_breaks hne hb n (first_gap hds rest)]
    simp only [Option.bind_eq_bind, Option.bind_some]
    rw [ih (by omega) _ hcol, fold_breaks hne hg]
    simp

/-! ## Double quotes -/

/-- A text that begins with a character of a word is written from a character on that is no gap. -/
theorem first_flatMap_quotedChar {single : Bool} {cs : List Char} (h : ∀ c ∈ cs.head?, isQuotedWord single c = true) :
    cs.flatMap (quotedChar single) = [] ∨ isGap (first (cs.flatMap (quotedChar single))) = false := by
  cases cs with
  | nil => exact Or.inl rfl
  | cons c cs =>
    obtain ⟨hne, hc⟩ := quotedChar_spec (h c rfl)
    obtain ⟨d, ds, hds⟩ := List.exists_cons_of_ne_nil hne
    rw [List.flatMap_cons, hds]
    exact Or.inr (hc d (by simp [hds])).2

/-- Spaces are written as they are. -/
theorem flatMap_quotedChar_spaces {single : Bool} {g : List Char} (hg : ∀ c ∈ g, c = ' ') :
    g.flatMap (quotedChar single) = g := by
  have hs : quotedChar single ' ' = [' '] := by cases single <;> decide
  induction g with
  | nil => rfl
  | cons c g ih =>
    rw [List.forall_mem_cons] at hg
    rw [List.flatMap_cons, ih hg.2, hg.1, hs]
    rfl

/-- Between double quotes every text is written as words and spaces. -/
theorem between_double (cs : List Char) : Between false cs (cs.flatMap doubleQuotedChar) := by
  have hq : quotedChar false = doubleQuotedChar := rfl
  rw [← hq]
  induction words (isQuotedWord false) cs with
  | word hw => exact .word hw
  | @gap w g cs hw hne hg hcs _ ih =>
    have hs : ∀ c ∈ g, c = ' ' := fun c hc => by simpa [isQuotedWord] using hg c hc
    have hf : g.flatMap (quotedChar false) = g := flatMap_quotedChar_spaces hs
    rw [List.flatMap_append, List.flatMap_append, hf]
    exact .spaces hw hne hs (first_flatMap_quotedChar hcs) ih

/-! ## Single quotes -/

/-- A text without line breaks is written character by character. -/
theorem singleQuotedChars_append (n : Nat) {w : List Char} (hw : ∀ c ∈ w, isBreak c = false) (cs : List Char) :
    singleQuotedChars n false (w ++ cs) = w.flatMap (quotedChar true) ++ singleQuotedChars n false cs := by
  induction w with
  | nil => rfl
  | cons c w ih =>
    rw [List.forall_mem_cons] at hw
    rw [List.cons_append, singleQuotedChars, if_neg (by simp [hw.1]), ih hw.2, List.flatMap_cons, List.append_assoc]
    simp only [quotedChar, Bool.false_eq_true, if_false, if_true, List.nil_append, List.append_assoc]

/-- Line breaks are written as they are, and what follows them is indented. -/
theorem singleQuotedChars_breaks (n : Nat) {g : List Char} (hne : g ≠ []) (hg : ∀ c ∈ g, isBreak c = true) (afterBreak : Bool)
    (cs : List Char) : singleQuotedChars n afterBreak (g ++ cs) = g ++ singleQuotedChars n true cs := by
  induction g generalizing afterBreak with
  | nil => exact absurd rfl hne
  | cons c g ih =>
    rw [List.forall_mem_cons] at hg
    rw [List.cons_append, singleQuotedChars, if_pos hg.1]
    cases g with
    | nil => rfl
    | cons d g =>
      rw [ih (List.cons_ne_nil d g) hg.2]
      rfl

/-- What follows a line break is indented, be it the end of the text. -/
theorem singleQuotedChars_true (n : Nat) {cs : List Char} (h : ∀ c ∈ cs.head?, isBreak c = false) :
    singleQuotedChars n true cs = spaces n ++ singleQuotedChars n false cs := by
  cases cs with
  | nil => simp [singleQuotedChars]
  | cons c cs =>
    have hc : isBreak c = false := h c rfl
    simp [singleQuotedChars, hc]

/-- No line break follows a space in a text that has none behind a space. -/
theorem notBreak_of_hasSpaceBreak {front back : List Char} {a b : Char} (h : hasSpaceBreak (front ++ a :: b :: back) = false) :
    a = ' ' → isBreak b = false := by
  induction front with
  | nil =>
    rintro rfl
    simp only [List.nil_append, hasSpaceBreak, Bool.or_eq_false_iff] at h
    simpa using h.1
  | cons c front ih =>
    rw [List.cons_append, hasSpaceBreak] at h
    exact ih (Bool.or_eq_false_iff.1 h).2

/-- No space follows a line break in a text that has none behind a line break. -/
theorem ne_space_of_hasBreakSpace {front back : List Char} {a b : Char} (h : hasBreakSpace (front ++ a :: b :: back) = false) :
    isBreak a = true → b ≠ ' ' := by
  induction front with
  | nil =>
    intro ha
    simp only [List.nil_append, hasBreakSpace, Bool.or_eq_false_iff] at h
    simpa [ha] using h.1
  | cons c front ih =>
    rw [List.cons_append, hasBreakSpace] at h
    exact ih (Bool.or_eq_false_iff.1 h).2

/-- A gap without a change from spaces to line breaks or back is all of one kind. -/
theorem spaces_or_breaks {front g back : List Char} (hg : ∀ c ∈ g, c = ' ' ∨ isBreak c = true)
    (hs : hasSpaceBreak (front ++ (g ++ back)) = false) (hb : hasBreakSpace (front ++ (g ++ back)) = false) :
    (∀ c ∈ g, c = ' ') ∨ ∀ c ∈ g, isBreak c = true := by
  induction g generalizing front with
  | nil => exact Or.inl (List.forall_mem_nil _)
  | cons a g ih =>
    rw [List.forall_mem_cons] at hg
    have hcut : front ++ (a :: g ++ back) = (front ++ [a]) ++ (g ++ back) := by simp
    have hi := ih hg.2 (hcut ▸ hs) (hcut ▸ hb)
    cases g with
    | nil => exact hg.1.imp (fun h => by simpa using h) (fun h => by simpa using h)
    | cons b g =>
      simp only [List.cons_append] at hs hb
      rcases hg.1 with ha | ha
      · have hnb := notBreak_of_hasSpaceBreak hs ha
        refine Or.inl ?_
        rw [List.forall_mem_cons]
        refine ⟨ha, hi.resolve_right fun h => ?_⟩
        rw [h b (by simp)] at hnb
        cases hnb
      · have hns := ne_space_of_hasBreakSpace hb ha
        refine Or.inr ?_
        rw [List.forall_mem_cons]
        exact ⟨ha, hi.resolve_left fun h => hns (h b (by simp))⟩

/-- From a word on, a text without changes from spaces to line breaks or back is written between single quotes as words, spaces
and line breaks. -/
theorem between_words {n : Nat} (hpos : 0 < n) {cs : List Char} (h : Words (isQuotedWord true) cs) (hp : Printable cs)
    (hn : '\n' ∉ cs) {front : List Char} (hs : hasSpaceBreak (front ++ cs) = false) (hb : hasBreakSpace (front ++ cs) = false) :
    Between true cs (singleQuotedChars n false cs) := by
  have hword : ∀ {w : List Char}, (∀ c ∈ w, isQuotedWord true c = true) → ∀ c ∈ w, isBreak c = false := by
    intro w hw c hc
    have h := hw c hc
    simp only [isQuotedWord, if_true, Bool.and_eq_true, Bool.not_eq_true'] at h
    exact notBreak_of_notGap h.2
  induction h generalizing front with
  | @word w hw =>
    have he := singleQuotedChars_append n (hword hw) []
    rw [List.append_nil, singleQuotedChars, if_neg (by decide), List.append_nil] at he
    rw [he]
    exact .word hw
  | @gap w g cs hw hne hg hcs _ ih =>
    have hgap : ∀ c ∈ g, c = ' ' ∨ isBreak c = true := by
      intro c hc
      have h := hg c hc
      simp only [isQuotedWord, if_true, hp c (by simp [hc]), Bool.true_and, Bool.not_eq_false'] at h
      by_cases hb : isBreak c = true
      · exact Or.inr hb
      · refine Or.inl (Decidable.by_contra fun hs => ?_)
        rw [notGap_of_isPrintable (hp c (by simp [hc])) (by simpa using hb) hs] at h
        cases h
    have hfirst : ∀ c ∈ cs.head?, isBreak c = false := fun c hc => hword (w := [c]) (by simpa using hcs c hc) c (by simp)
    have hds : singleQuotedChars n false cs = [] ∨ isGap (first (singleQuotedChars n false cs)) = false := by
      cases cs with
      | nil => exact Or.inl rfl
      | cons c cs =>
        have hw : ∀ d ∈ [c].head?, isQuotedWord true d = true := by simpa using hcs c rfl
        have hc := first_flatMap_quotedChar hw
        have hne := (quotedChar_spec (hcs c rfl)).1
        have ha := singleQuotedChars_append n (w := [c]) (by simpa using hfirst c rfl) cs
        rw [List.flatMap_singleton] at ha hc
        rw [← List.singleton_append, ha, first_append hne]
        exact Or.inr (hc.resolve_left hne)
    have hi : Between true cs (singleQuotedChars n false cs) := by
      have hs' : hasSpaceBreak ((front ++ (w ++ g)) ++ cs) = false := by simpa using hs
      exact ih (fun c hc => hp c (by simp [hc])) (fun hc => hn (by simp [hc])) hs' (by simpa using hb)
    rw [singleQuotedChars_append n (hword hw)]
    rw [← List.append_assoc front] at hs hb
    rcases spaces_or_breaks hgap hs hb with hsp | hbr
    · have hnb : ∀ c ∈ g, isBreak c = false := fun c hc => by
        rw [hsp c hc]
        decide
      rw [singleQuotedChars_append n hnb, flatMap_quotedChar_spaces hsp]
      exact .spaces hw hne hsp hds hi
    · rw [singleQuotedChars_breaks n hne hbr, singleQuotedChars_true n hfirst]
      refine .breaks hw hne (fun c hc => ⟨hbr c hc, ?_⟩) hpos hds hi
      rintro rfl
      exact hn (by simp [hc])

/-- A text that can be written between single quotes, and that has no line feeds, is written there as words, spaces and line
breaks. -/
theorem between_single {cs : List Char} (h : allowsSingleQuotes cs = true) (hn : '\n' ∉ cs) {n : Nat} (hpos : 0 < n) :
    Between true cs (singleQuotedChars n false cs) := by
  simp only [allowsSingleQuotes, needsEscapes, Bool.not_eq_true', Bool.or_eq_false_iff, Bool.not_eq_false',
    List.all_eq_true] at h
  have hs : hasSpaceBreak ([] ++ cs) = false := h.1.1
  exact between_words hpos (words _ cs) h.1.2 hn hs h.2

end RegexTree.Yaml

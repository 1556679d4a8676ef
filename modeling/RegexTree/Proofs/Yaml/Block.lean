import RegexTree.Proofs.Yaml.Gap

/-!
# Literal blocks, read back

A text in a literal block is cut into line breaks at its beginning, lines with breaks between them, and breaks at its end. The
indentation is read off the first line or stated in the header, each line behind it is read as it stands
(`readBlockLines_lines`), and the sign of the header says what belongs to the text of the breaks at its end (`readBlock_block`).
-/

namespace RegexTree.Yaml

/-! ## Writing lines -/

/-- Characters of a line are written as they are. -/
theorem blockChars_append (n : Nat) {w : List Char} (hw : ∀ c ∈ w, isBreak c = false) (cs : List Char) :
    blockChars n false (w ++ cs) = w ++ blockChars n false cs := by
  induction w with
  | nil => rfl
  | cons c w ih =>
    rw [List.forall_mem_cons] at hw
    rw [List.cons_append, blockChars, if_neg (by simp [hw.1]), ih hw.2]
    rfl

/-- Line breaks are written as they are, and a line follows them. -/
theorem blockChars_breaks (n : Nat) {g : List Char} (hne : g ≠ []) (hg : ∀ c ∈ g, isBreak c = true) (afterBreak : Bool)
    (cs : List Char) : blockChars n afterBreak (g ++ cs) = g ++ blockChars n true cs := by
  induction g generalizing afterBreak with
  | nil => exact absurd rfl hne
  | cons c g ih =>
    rw [List.forall_mem_cons] at hg
    rw [List.cons_append, blockChars, if_pos hg.1]
    cases g with
    | nil => rfl
    | cons d g =>
      rw [ih (List.cons_ne_nil d g) hg.2]
      rfl

/-- Line breaks at the end are written as they are. -/
theorem blockChars_end (n : Nat) {g : List Char} (hg : ∀ c ∈ g, isBreak c = true) (afterBreak : Bool) :
    blockChars n afterBreak g = g := by
  cases g with
  | nil => rfl
  | cons c g =>
    have h := blockChars_breaks n (List.cons_ne_nil c g) hg afterBreak []
    rwa [List.append_nil, blockChars, List.append_nil] at h

/-- A line that is not empty is indented. -/
theorem blockChars_true (n : Nat) {cs : List Char} (hne : cs ≠ []) (h : isBreak (first cs) = false) :
    blockChars n true cs = spaces n ++ blockChars n false cs := by
  obtain ⟨c, cs, rfl⟩ := List.exists_cons_of_ne_nil hne
  rw [first_cons] at h
  simp [blockChars, h]

/-- A text is no longer than it is written. -/
theorem length_le_blockChars (n : Nat) (afterBreak : Bool) (cs : List Char) :
    cs.length ≤ (blockChars n afterBreak cs).length := by
  induction cs generalizing afterBreak with
  | nil => exact Nat.zero_le _
  | cons c cs ih =>
    rw [blockChars]
    split
    · exact Nat.succ_le_succ (ih true)
    · rw [List.length_append, List.length_cons, List.length_cons]
      have := ih false
      omega

/-! ## Reading indentation -/

/-- An indentation is read up to the column of the lines, or to another character than a space. An indentation of zero is one
that is still to be found. -/
theorem readIndentation_spaces {indent k : Nat} {rest : List Char} (hb : isBreak (first rest) = false) (reached : Nat)
    (p : Position) (hk : indent = 0 ∨ p.column + k ≤ indent)
    (hr : indent = 0 ∨ p.column + k < indent → first rest ≠ ' ' ∧ first rest ≠ '\t') :
    readIndentation indent reached (glyphs p (spaces k ++ rest)) =
      some ([], max reached (p.column + k), glyphs (p.afterAll (spaces k)) rest) := by
  induction k generalizing p with
  | zero =>
    obtain ⟨gs, hgs⟩ := glyphs_eq_cons p rest
    have hn : spaces 0 ++ rest = rest := rfl
    rw [Nat.add_zero] at hr
    have hin : ∀ c, ((indent == 0 || decide ((p.glyph (first rest)).column < indent)) &&
        (p.glyph (first rest)).char == c) = true → (indent = 0 ∨ p.column < indent) ∧ first rest = c := by
      intro c h
      have h' : ((indent == 0 || decide (p.column < indent)) && first rest == c) = true := h
      simpa using h'
    rw [hn, hgs, readIndentation, if_neg fun h => (hr (hin ' ' h).1).1 (hin ' ' h).2,
      if_neg fun h => (hr (hin '\t' h).1).2 (hin '\t' h).2, if_neg (by simp [hb]), ← hgs]
    rfl
  | succ k ih =>
    have hc : (p.after ' ').column = p.column + 1 := rfl
    have hin : (indent == 0 || decide (p.column < indent)) = true := by
      simp only [Bool.or_eq_true, beq_iff_eq, decide_eq_true_eq]
      omega
    have hs : spaces (k + 1) = ' ' :: spaces k := rfl
    rw [hs, List.cons_append, glyphs, readIndentation, if_pos (by rw [Position.column_glyph, hin]; rfl),
      ih (p.after ' ') (by rw [hc]; omega) (fun h => hr (by rw [hc] at h; omega)), hc, Position.afterAll_cons]
    simp only [Nat.add_assoc, Nat.add_comm 1]

/-- Empty lines and the indentation behind them are read up to a line that is not empty. -/
theorem readIndentation_breaks (indent k : Nat) {g : List Char} (hg : ∀ c ∈ g, isBreak c = true) (rest : List Char)
    (hb : isBreak (first rest) = false) (reached : Nat) (p : Position) (hp : p.column = 0) (hk : indent = 0 ∨ k ≤ indent)
    (hr : indent = 0 ∨ k < indent → first rest ≠ ' ' ∧ first rest ≠ '\t') :
    readIndentation indent reached (glyphs p (g ++ (spaces k ++ rest))) =
      some (g, max reached k, glyphs (p.afterAll (g ++ spaces k)) rest) := by
  induction g generalizing p reached with
  | nil =>
    have h := readIndentation_spaces hb reached p (k := k) (by rwa [hp, Nat.zero_add]) (by rwa [hp, Nat.zero_add])
    rwa [hp, Nat.zero_add] at h
  | cons c g ih =>
    rw [List.forall_mem_cons] at hg
    have hs : c ≠ ' ' := ne_of_isBreak hg.1 (by decide)
    have ht : c ≠ '\t' := ne_of_isBreak hg.1 (by decide)
    rw [List.cons_append, glyphs, readIndentation, if_neg (by simp [Position.glyph, hs]), if_neg (by simp [Position.glyph, ht]),
      if_pos (by simpa [Position.glyph] using hg.1), ih hg.2 _ _ (Position.column_after_break p hg.1)]
    simp [Position.glyph, hp]

/-! ## Reading lines -/

/-- A line is read up to its end, and then the empty lines behind it. -/
theorem readBlockLines_line {n k : Nat} {w g rest : List Char} {t : Char} (hne : w ≠ [])
    (hw : ∀ c ∈ w, isLineEnd c = false) (ht : isBreak t = true) (hg : ∀ c ∈ g, isBreak c = true)
    (hb : isBreak (first rest) = false) (hk : k ≤ n) (hr : k < n → first rest ≠ ' ' ∧ first rest ≠ '\t') (hn : 0 < n)
    (fuel : Nat) (isMore : Bool) (last breaks : List Char) (p : Position) (hp : p.column = n) :
    readBlockLines true n (fuel + 1) isMore last breaks (glyphs p (w ++ t :: (g ++ (spaces k ++ rest)))) =
      (readBlockLines true n fuel (isWhite (first w)) [t] g
        (glyphs (p.afterAll (w ++ t :: (g ++ spaces k))) rest)).map
          fun r => (last ++ breaks ++ w ++ r.1, r.2.1, r.2.2.1, r.2.2.2) := by
  have hend : isLineEnd t = true := by simp [isLineEnd, ht]
  have hspan : spanChars (fun c => !isLineEnd c) (glyphs p (w ++ t :: (g ++ (spaces k ++ rest)))) =
      (w, glyphs (p.afterAll w) (t :: (g ++ (spaces k ++ rest)))) := spanChars_glyphs (by simpa using hw) (by simp [hend]) p
  have hfirst : first (w ++ t :: (g ++ (spaces k ++ rest))) = first w := first_append hne _
  have hpeek : first w ≠ endMark := by
    obtain ⟨c, w, rfl⟩ := List.exists_cons_of_ne_nil hne
    intro hc
    have hl := hw c (by simp)
    rw [first_cons] at hc
    rw [hc] at hl
    cases hl
  have hi := readIndentation_breaks n k hg rest hb 0 ((p.afterAll w).after t) (Position.column_after_break _ ht)
    (Or.inr hk) (fun h => hr (by omega))
  rw [readBlockLines, if_pos (by simp [hp, hfirst, hpeek]), hspan]
  simp only [peek_glyphs, first_cons, ht, if_true, drop_glyphs_cons, hi, hfirst, Option.bind_eq_bind, Option.bind_some,
    Bool.not_true, Bool.false_and, Bool.false_eq_true, if_false, Position.afterAll_append, Position.afterAll_cons]
  cases readBlockLines true n fuel (isWhite (first w)) [t] g
    (glyphs ((((p.afterAll w).after t).afterAll g).afterAll (spaces k)) rest) <;> rfl

/-- Where a text resumes further out, a block is at its end. -/
theorem readBlockLines_end {n : Nat} {last breaks rest : List Char} {p : Position} (h : p.column ≠ n) {fuel : Nat}
    (hf : 0 < fuel) (isMore : Bool) :
    readBlockLines true n fuel isMore last breaks (glyphs p rest) = some ([], last, breaks, glyphs p rest) := by
  obtain ⟨fuel, rfl⟩ : ∃ k, fuel = k + 1 := ⟨fuel - 1, by omega⟩
  rw [readBlockLines, if_neg (by simp [h])]

/-- The characters of a line do not end it. -/
theorem notLineEnd {w : List Char} (hp : Printable w) (hw : ∀ c ∈ w, isBreak c = false) : ∀ c ∈ w, isLineEnd c = false := by
  intro c hc
  have he : c ≠ endMark := ne_of_isPrintable (hp c hc) (by decide)
  simp [isLineEnd, hw c hc, he]

/-- Where a text begins and ends with other characters than breaks, breaks in it stand between two lines. -/
theorem lines_around_gap {w g cs : List Char} (hne : g ≠ []) (hg : ∀ c ∈ g, isBreak c = true)
    (hcs : ∀ c, cs.head? = some c → isBreak c = false) (hf : isBreak (first (w ++ (g ++ cs))) = false)
    (hl : ∀ c ∈ (w ++ (g ++ cs)).getLast?, isBreak c = false) :
    w ≠ [] ∧ cs ≠ [] ∧ isBreak (first cs) = false ∧ ∀ c ∈ cs.getLast?, isBreak c = false := by
  have hcne : cs ≠ [] := by
    rintro rfl
    have hlast := hl (g.getLast hne) (by
      rw [List.append_nil, List.getLast?_append, List.getLast?_eq_some_getLast hne]
      rfl)
    rw [hg _ (List.getLast_mem hne)] at hlast
    cases hlast
  refine ⟨?_, hcne, ?_, fun c hc => hl c ?_⟩
  · rintro rfl
    obtain ⟨b, g, rfl⟩ := List.exists_cons_of_ne_nil hne
    rw [List.nil_append, List.cons_append, first_cons, hg b (by simp)] at hf
    cases hf
  · obtain ⟨c, cs, rfl⟩ := List.exists_cons_of_ne_nil hcne
    exact hcs c rfl
  · rw [List.getLast?_append, List.getLast?_append, Option.mem_def.1 hc]
    rfl

/-- Behind breaks a block goes on in a line that is indented. -/
theorem blockChars_gap (n : Nat) {w g cs : List Char} (hw : ∀ c ∈ w, isBreak c = false) (hne : g ≠ [])
    (hg : ∀ c ∈ g, isBreak c = true) (hcs : cs ≠ []) (hf : isBreak (first cs) = false) (rest : List Char) :
    blockChars n false (w ++ (g ++ cs) ++ rest) = w ++ (g ++ (spaces n ++ blockChars n false (cs ++ rest))) := by
  rw [List.append_assoc, List.append_assoc g, blockChars_append n hw, blockChars_breaks n hne hg,
    blockChars_true n (by simp [hcs]) (by rwa [first_append hcs])]

/-- The lines of a block are read as they stand, up to the breaks behind the last of them. -/
theorem readBlockLines_lines {n : Nat} {body rest more : List Char} {t : Char} (h : Words (fun c => !isBreak c) body)
    (hp : Printable body) (hne : body ≠ []) (hf : isBreak (first body) = false) (hl : ∀ c ∈ body.getLast?, isBreak c = false)
    (ht : isBreak t = true) (hm : ∀ c ∈ more, isBreak c = true) (hr : Resumes (n - 1) rest) (hn : 0 < n) {fuel : Nat}
    (hfuel : body.length < fuel) (isMore : Bool) (last breaks : List Char) (p : Position) (hc : p.column = n) :
    ∃ q : Position, q.column = indentation rest ∧
      readBlockLines true n fuel isMore last breaks (glyphs p (blockChars n false (body ++ t :: more) ++ rest)) =
        some (last ++ breaks ++ body, [t], more, glyphs q (content rest)) := by
  induction h generalizing fuel isMore last breaks p with
  | @word w hw =>
    obtain ⟨fuel, rfl⟩ : ∃ k, fuel = k + 1 := ⟨fuel - 1, by omega⟩
    have hnb : ∀ c ∈ w, isBreak c = false := by simpa using hw
    have hmore : ∀ c ∈ t :: more, isBreak c = true := by simpa [ht] using hm
    have hcol : (p.afterAll (w ++ t :: (more ++ spaces (indentation rest)))).column = indentation rest := by
      rw [Position.afterAll_append, ← List.cons_append, column_line (List.cons_ne_nil _ _) hmore]
    have hk := hr.1
    have hlen := List.length_pos_iff.2 hne
    have hline := readBlockLines_line hne (notLineEnd hp hnb) ht hm hr.content.2 (k := indentation rest) (n := n) (by omega)
      (fun _ => hr.first_ne) hn fuel isMore last breaks p hc
    rw [spaces_append_content] at hline
    refine ⟨_, hcol, ?_⟩
    rw [blockChars_append n hnb, blockChars_end n hmore, List.append_assoc, List.cons_append, hline,
      readBlockLines_end (by omega) (by omega)]
    simp
  | @gap w g cs hw hne' hg hcs _ ih =>
    obtain ⟨fuel, rfl⟩ : ∃ k, fuel = k + 1 := ⟨fuel - 1, by omega⟩
    have hnb : ∀ c ∈ w, isBreak c = false := by simpa using hw
    have hbr : ∀ c ∈ g, isBreak c = true := by simpa using hg
    obtain ⟨hwne, hcne, hcf, hcl⟩ := lines_around_gap hne' hbr (fun c hc' => by simpa using hcs c hc') hf hl
    have hcol : ((p.afterAll (w ++ (g ++ spaces n)))).column = n := by
      rw [Position.afterAll_append, column_line hne' hbr]
    have hfirst : isBreak (first (blockChars n false (cs ++ t :: more) ++ rest)) = false := by
      obtain ⟨c, cs, rfl⟩ := List.exists_cons_of_ne_nil hcne
      rw [first_cons] at hcf
      simp [blockChars, hcf]
    have hcut := blockChars_gap n hnb hne' hbr hcne hcf (t :: more)
    obtain ⟨b, g, rfl⟩ := List.exists_cons_of_ne_nil hne'
    have hbg := List.forall_mem_cons.1 hbr
    simp only [List.length_append, List.length_cons] at hfuel
    obtain ⟨q, hq, hread⟩ := ih (fun c hc' => hp c (by simp [hc'])) hcne hcf hcl (show cs.length < fuel by omega)
      (isWhite (first w)) [b] g _ hcol
    refine ⟨q, hq, ?_⟩
    rw [hcut, List.append_assoc, List.append_assoc (b :: g), List.cons_append, List.append_assoc,
      readBlockLines_line hwne (notLineEnd (fun c hc' => hp c (by simp [hc'])) hnb) hbg.1 hbg.2 hfirst (Nat.le_refl n)
        (fun h => absurd h (Nat.lt_irrefl n)) hn fuel isMore last breaks p hc]
    simp only [List.cons_append] at hread
    rw [hread]
    simp

/-! ## Headers -/

/-- The sign of a header. -/
def signOf : Chomping → List Char
  | .strip => ['-']
  | .clip => []
  | .keep => ['+']

/-- The text of a block with the line breaks at its end that belong to it. -/
def chomp (chomping : Chomping) (text last more : List Char) : List Char :=
  match chomping with
  | .strip => text
  | .clip => text ++ last
  | .keep => text ++ last ++ more

/-- The header of a block, of which the digit is always two. -/
def headerOf (isStated : Bool) (chomping : Chomping) : List Char := (if isStated then ['2'] else []) ++ signOf chomping

/-- A header is read up to the end of its line. -/
theorem readBlockHeader_headerOf (isStated : Bool) (chomping : Chomping) (rest : List Char) (p : Position) :
    readBlockHeader (glyphs p (headerOf isStated chomping ++ '\n' :: rest)) =
      some (⟨chomping, if isStated then some 2 else none⟩, glyphs (p.afterAll (headerOf isStated chomping)) ('\n' :: rest)) := by
  cases isStated <;> cases chomping <;> rfl

/-- Behind its header a block is read from the first line on. -/
theorem readBlock_headerOf (isStated : Bool) (chomping : Chomping) (m : Nat) (lines : List Char) (p : Position) :
    readBlock true m (glyphs p (headerOf isStated chomping ++ '\n' :: lines)) = do
      let q := (p.afterAll (headerOf isStated chomping)).after '\n'
      let (breaks, reached, rest) ← readIndentation (if isStated then m + 2 else 0) 0 (glyphs q lines)
      let indent := if isStated then m + 2 else max (max reached (m + 1)) 1
      let (text, last, more, rest) ← readBlockLines true indent (rest.length + 1) false [] breaks rest
      return (chomp chomping text last more, rest) := by
  have hf : ∀ q : Position, finishLine (glyphs q ('\n' :: lines)) = some (glyphs (q.after '\n') lines) := fun _ => rfl
  rw [readBlock, readBlockHeader_headerOf]
  simp only [Option.bind_eq_bind, Option.bind_some, hf]
  cases isStated with
  | true => rfl
  | false => rfl

/-! ## Texts -/

/-- A text is a part that does not end with a break, and breaks behind it. -/
theorem exists_trailing (cs : List Char) : ∃ body trail, cs = body ++ trail ∧ (∀ c ∈ body.getLast?, isBreak c = false) ∧
    ∀ c ∈ trail, isBreak c = true := by
  refine ⟨(cs.reverse.dropWhile isBreak).reverse, (cs.reverse.takeWhile isBreak).reverse, ?_, ?_, ?_⟩
  · rw [← List.reverse_append, List.takeWhile_append_dropWhile, List.reverse_reverse]
  · intro c hc
    rw [List.getLast?_reverse] at hc
    have h := List.head?_dropWhile_not isBreak cs.reverse
    rwa [Option.mem_def.1 hc] at h
  · intro c hc
    exact List.all_eq_true.1 List.all_takeWhile c (List.mem_reverse.1 hc)

/-- A text is breaks and a part behind them that does not begin with one. -/
theorem exists_leading (cs : List Char) : ∃ lead body, cs = lead ++ body ∧ (∀ c ∈ lead, isBreak c = true) ∧
    ∀ c ∈ body.head?, isBreak c = false := by
  refine ⟨cs.takeWhile isBreak, cs.dropWhile isBreak, List.takeWhile_append_dropWhile.symm,
    fun c hc => List.all_eq_true.1 List.all_takeWhile c hc, fun c hc => ?_⟩
  have h := List.head?_dropWhile_not isBreak cs
  rwa [Option.mem_def.1 hc] at h

/-- A text is nothing but breaks, or lines with breaks before and behind them. -/
theorem exists_lines (cs : List Char) : (∀ c ∈ cs, isBreak c = true) ∨
    ∃ lead body trail, cs = lead ++ body ++ trail ∧ (∀ c ∈ lead, isBreak c = true) ∧ (∀ c ∈ trail, isBreak c = true) ∧
      body ≠ [] ∧ isBreak (first body) = false ∧ ∀ c ∈ body.getLast?, isBreak c = false := by
  obtain ⟨front, trail, rfl, hl, ht⟩ := exists_trailing cs
  obtain ⟨lead, body, rfl, hlead, hbody⟩ := exists_leading front
  cases body with
  | nil =>
    left
    rw [List.append_nil]
    exact List.forall_mem_append.2 ⟨hlead, ht⟩
  | cons b body =>
    refine Or.inr ⟨lead, b :: body, trail, rfl, hlead, ht, List.cons_ne_nil b body, hbody b rfl, fun c hc => hl c ?_⟩
    rw [List.getLast?_append, Option.mem_def.1 hc]
    rfl

/-- The sign of a header depends on the last two characters of the text. -/
theorem chompingSign_of_reverse {cs : List Char} {c b : Char} (rest : List Char) (h : cs.reverse = c :: b :: rest) :
    chompingSign cs = if isBreak c then (if isBreak b then ['+'] else []) else ['-'] := by
  rw [chompingSign, h]
  cases hc : isBreak c <;> cases hb : isBreak b <;> simp [hc, hb]

/-- Two breaks or more at the end of a text are kept, and so is a text of breaks. -/
theorem chompingSign_breaks {cs front : List Char} {t : Char} {more : List Char} (ht : isBreak t = true)
    (hm : ∀ c ∈ more, isBreak c = true) (hcs : cs = front ++ t :: more) (h : front = [] ∨ more ≠ []) :
    chompingSign cs = ['+'] := by
  subst hcs
  rcases List.eq_nil_or_concat more with rfl | ⟨more, x, rfl⟩
  · rw [h.resolve_right (by simp)]
    simp [chompingSign, ht]
  · have hx := hm x (by simp)
    rcases List.eq_nil_or_concat more with rfl | ⟨more, y, rfl⟩
    · rw [chompingSign_of_reverse (c := x) (b := t) front.reverse (by simp), if_pos hx, if_pos ht]
    · have hy := hm y (by simp)
      rw [chompingSign_of_reverse (c := x) (b := y) (more.reverse ++ t :: front.reverse) (by simp), if_pos hx, if_pos hy]

/-- The sign of a header says which of the breaks at the end of a written text belong to it: all of those that the text has,
and not the one that was written to end a line. -/
theorem chompingSign_spec {body trail : List Char} (hne : body ≠ []) (hl : ∀ c ∈ body.getLast?, isBreak c = false)
    (ht : ∀ c ∈ trail, isBreak c = true) :
    ∃ chomping t more, chompingSign (body ++ trail) = signOf chomping ∧ endLine (body ++ trail) = body ++ t :: more ∧
      isBreak t = true ∧ (∀ c ∈ more, isBreak c = true) ∧ chomp chomping body [t] more = body ++ trail := by
  obtain ⟨front, c, rfl⟩ := (List.eq_nil_or_concat body).resolve_left hne
  rw [List.concat_eq_append] at hl ⊢
  have hc : isBreak c = false := hl c (by simp)
  rcases trail with _ | ⟨t, more⟩
  · refine ⟨.strip, '\n', [], ?_, ?_, rfl, List.forall_mem_nil _, by simp [chomp]⟩
    · cases hr : front.reverse <;> simp [chompingSign, hr, hc, signOf]
    · simp [endLine, hc]
  · rw [List.forall_mem_cons] at ht
    have hlast : ((front ++ [c]) ++ t :: more).getLast?.any isBreak = true := by
      rw [List.getLast?_append]
      rcases List.eq_nil_or_concat more with rfl | ⟨more, x, rfl⟩
      · simp [ht.1]
      · simp [List.getLast?_cons, ht.2 x (by simp)]
    have hend : endLine ((front ++ [c]) ++ t :: more) = (front ++ [c]) ++ t :: more := by rw [endLine, if_pos hlast]
    by_cases hm : more = []
    · subst hm
      refine ⟨.clip, t, [], ?_, hend, ht.1, List.forall_mem_nil _, by simp [chomp]⟩
      rw [chompingSign_of_reverse (c := t) (b := c) front.reverse (by simp), if_pos ht.1, if_neg (by simp [hc])]
      rfl
    · exact ⟨.keep, t, more, chompingSign_breaks ht.1 ht.2 rfl (Or.inr hm), hend, ht.1, ht.2, by simp [chomp]⟩

/-- The header of a written block. -/
theorem blockHeader_eq {cs : List Char} {chomping : Chomping} (h : chompingSign cs = signOf chomping) :
    blockHeader cs = '|' :: headerOf (cs.head?.any isSpaceOrBreak) chomping := by
  rw [blockHeader, h, headerOf, List.cons_append]

/-- The first line of a block is indented, and the breaks before it are not. -/
theorem blockChars_lead (n : Nat) {lead body : List Char} (hlead : ∀ c ∈ lead, isBreak c = true) (hne : body ≠ [])
    (hf : isBreak (first body) = false) : blockChars n true (lead ++ body) = lead ++ (spaces n ++ blockChars n false body) := by
  by_cases hl : lead = []
  · rw [hl, List.nil_append, blockChars_true n hne hf]
    rfl
  · rw [blockChars_breaks n hl hlead, blockChars_true n hne hf]

/-- A text of breaks alone is read back from a block: all of them stand before the first line, and there is none. -/
theorem readBlock_breaks {g : List Char} (hne : g ≠ []) (hg : ∀ c ∈ g, isBreak c = true) {m : Nat} {rest : List Char}
    (hr : Resumes m rest) (p : Position) :
    ∃ q : Position, q.column = indentation rest ∧ readBlock true m (glyphs p (headerOf true .keep ++ '\n' :: (g ++ rest))) =
      some (g, glyphs q (content rest)) := by
  have hk := hr.1
  have hi := readIndentation_breaks (m + 2) (indentation rest) hg (content rest) hr.content.2 0
    ((p.afterAll (headerOf true .keep)).after '\n') (Position.column_after_break _ rfl) (Or.inr (by omega))
    (fun _ => hr.first_ne)
  rw [spaces_append_content] at hi
  have hcol := column_line hne hg (indentation rest) ((p.afterAll (headerOf true .keep)).after '\n')
  refine ⟨_, hcol, ?_⟩
  rw [readBlock_headerOf]
  simp only [if_true, hi, Option.bind_eq_bind, Option.bind_some]
  rw [readBlockLines_end (by omega) (by omega)]
  rfl

/-- A text with a line is read back from a block. Where the indentation is not stated, it is read off the first line, before
which nothing stands. -/
theorem readBlock_lines {lead body more rest : List Char} {t : Char} {isStated : Bool} {m : Nat} (hp : Printable body)
    (hne : body ≠ []) (hf : isBreak (first body) = false) (hl : ∀ c ∈ body.getLast?, isBreak c = false)
    (hlead : ∀ c ∈ lead, isBreak c = true) (ht : isBreak t = true) (hm : ∀ c ∈ more, isBreak c = true)
    (hs : isStated = false → first body ≠ ' ') (hr : Resumes m rest) (chomping : Chomping) (p : Position) :
    ∃ q : Position, q.column = indentation rest ∧
      readBlock true m (glyphs p (headerOf isStated chomping ++
        '\n' :: (blockChars (m + 2) true (lead ++ body ++ t :: more) ++ rest))) =
        some (chomp chomping (lead ++ body) [t] more, glyphs q (content rest)) := by
  let start := (p.afterAll (headerOf isStated chomping)).after '\n'
  have hstart : start.column = 0 := Position.column_after_break _ rfl
  have hfirst : first (blockChars (m + 2) false (body ++ t :: more) ++ rest) = first body := by
    obtain ⟨c, body, rfl⟩ := List.exists_cons_of_ne_nil hne
    rw [first_cons] at hf
    simp [blockChars, hf]
  have hcol : (start.afterAll (lead ++ spaces (m + 2))).column = m + 2 := by
    by_cases hlead' : lead = []
    · rw [hlead', List.nil_append, Position.afterAll_of_notBreak, hstart]
      · simp [spaces]
      · intro c hc
        rw [List.eq_of_mem_replicate hc]
        decide
    · exact column_line hlead' hlead (m + 2) start
  have htab : first body ≠ '\t' := by
    obtain ⟨c, body, rfl⟩ := List.exists_cons_of_ne_nil hne
    exact ne_of_isPrintable (hp c (by simp)) (by decide)
  have hi := readIndentation_breaks (if isStated then m + 2 else 0) (m + 2) hlead
    (blockChars (m + 2) false (body ++ t :: more) ++ rest) (by rw [hfirst, hf]) 0 start hstart
    (by cases isStated <;> simp) (fun h => by
      rw [hfirst]
      refine ⟨hs ?_, htab⟩
      cases isStated with
      | false => rfl
      | true => simp at h)
  have hindent : (if isStated then m + 2 else max (max (max 0 (m + 2)) (m + 1)) 1) = m + 2 := by
    cases isStated with
    | false => simp only [Bool.false_eq_true, if_false]; omega
    | true => rfl
  have hfuel : body.length < (glyphs (start.afterAll (lead ++ spaces (m + 2)))
      (blockChars (m + 2) false (body ++ t :: more) ++ rest)).length + 1 := by
    have hlen := length_le_blockChars (m + 2) false (body ++ t :: more)
    simp only [List.length_append, List.length_cons, length_glyphs] at hlen ⊢
    omega
  obtain ⟨q, hq, hread⟩ := readBlockLines_lines (words _ body) hp hne hf hl ht hm (n := m + 2)
    (show Resumes (m + 1) rest from ⟨by have := hr.1; omega, hr.2⟩) (by omega) hfuel false [] lead _ hcol
  refine ⟨q, hq, ?_⟩
  have hcut : blockChars (m + 2) true (lead ++ body ++ t :: more) ++ rest =
      lead ++ (spaces (m + 2) ++ (blockChars (m + 2) false (body ++ t :: more) ++ rest)) := by
    rw [List.append_assoc, blockChars_lead _ hlead (by simp) (by rwa [first_append hne])]
    simp
  rw [readBlock_headerOf, hcut]
  simp only [Option.bind_eq_bind]
  rw [hi]
  simp only [Option.bind_some, hindent, hread, List.nil_append]
  rfl

/-- A text in a literal block is read back, up to the line in which the text around it resumes. -/
theorem readBlock_block {cs : List Char} (h : allowsBlock cs = true) {m : Nat} {rest : List Char} (hr : Resumes m rest)
    (p : Position) :
    ∃ header q, blockHeader cs = '|' :: header ∧ q.column = indentation rest ∧
      readBlock true m (glyphs p (header ++ '\n' :: (blockChars (m + 2) true (endLine cs) ++ rest))) =
        some (cs, glyphs q (content rest)) := by
  simp only [allowsBlock, needsEscapes, Bool.not_eq_true', Bool.or_eq_false_iff, Bool.not_eq_false', List.all_eq_true,
    List.isEmpty_eq_false_iff] at h
  obtain ⟨⟨⟨-, hp⟩, hne⟩, -⟩ := h
  rcases exists_lines cs with hbreaks | ⟨lead, body, trail, rfl, hlead, ht, hbne, hbf, hbl⟩
  · obtain ⟨c, trail, rfl⟩ := List.exists_cons_of_ne_nil hne
    have hc := List.forall_mem_cons.1 hbreaks
    have hsign : chompingSign (c :: trail) = signOf .keep :=
      chompingSign_breaks hc.1 hc.2 (List.nil_append _).symm (Or.inl rfl)
    have hhead : (c :: trail).head?.any isSpaceOrBreak = true := by simp [isSpaceOrBreak, hc.1]
    have hend : endLine (c :: trail) = c :: trail := by
      rw [endLine, if_pos]
      rw [List.getLast?_eq_some_getLast hne]
      exact hbreaks _ (List.getLast_mem hne)
    obtain ⟨q, hq, hread⟩ := readBlock_breaks hne hbreaks hr p
    refine ⟨_, q, blockHeader_eq hsign, hq, ?_⟩
    rw [hhead, hend, blockChars_end _ hbreaks]
    exact hread
  · have hl : ∀ c ∈ (lead ++ body).getLast?, isBreak c = false := by
      rw [List.getLast?_append, List.getLast?_eq_some_getLast hbne]
      rwa [List.getLast?_eq_some_getLast hbne] at hbl
    obtain ⟨chomping, t, more, hsign, hend, htb, hm, hchomp⟩ :=
      chompingSign_spec (List.append_ne_nil_of_right_ne_nil lead hbne) hl ht
    have hs : (lead ++ body ++ trail).head?.any isSpaceOrBreak = false → first body ≠ ' ' := by
      intro hn he
      cases lead with
      | nil =>
        obtain ⟨c, body, rfl⟩ := List.exists_cons_of_ne_nil hbne
        rw [first_cons] at he
        simp [he, isSpaceOrBreak] at hn
      | cons b lead => simp [isSpaceOrBreak, hlead b (by simp)] at hn
    obtain ⟨q, hq, hread⟩ := readBlock_lines (fun c hc => hp c (by simp [hc])) hbne hbf hbl hlead htb hm hs hr chomping p
    refine ⟨_, q, blockHeader_eq hsign, hq, ?_⟩
    rw [hend, hread, hchomp]

end RegexTree.Yaml

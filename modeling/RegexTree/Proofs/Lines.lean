import RegexTree.Proofs.Detect
import RegexTree.Proofs.Json.Reader

/-!
# JSON is never taken for YAML

A line of a JSON text looks like no field: before its first colon it has a quote, or nothing but white space where the colon
stands on another line than its key. This holds of each part of a text wherever it stands (`Quiet`), since no string has a line
break in it. So the format of a JSON text depends on its value alone (`json_never_taken_for_yaml`).
-/

namespace RegexTree

/-- The part of a text behind its last line break. -/
def lineTail (cs : List Char) : List Char := (cs.reverse.takeWhile (· != '\n')).reverse

/-- The last line of a text has a quote, or it is blank and not the first. -/
def Guarded (cs : List Char) : Prop := '"' ∈ lineTail cs ∨ '\n' ∈ cs ∧ ∀ c ∈ lineTail cs, Text.isBlank c

/-- What stands before each colon of a text is guarded. -/
def Quiet (cs : List Char) : Prop := ∀ a b, cs = a ++ ':' :: b → Guarded a

namespace LinesAux

open Json

/-! ## Lines -/

/-- Without a line break a text is its last line, and continues that of a text before it. -/
theorem lineTail_append {b : List Char} (h : '\n' ∉ b) (a : List Char) : lineTail (a ++ b) = lineTail a ++ b := by
  have hb := Span.bne_of_notMem (mt List.mem_reverse.1 h)
  rw [lineTail, List.reverse_append, List.takeWhile_append_of_pos hb, List.reverse_append, List.reverse_reverse, lineTail]

/-- What stands behind the last line break of a text is its last line. -/
theorem lineTail_break {b : List Char} (h : '\n' ∉ b) (a : List Char) : lineTail (a ++ '\n' :: b) = b := by
  rw [List.append_cons, lineTail_append h]
  simp [lineTail]

/-- Without a line break a text is its last line. -/
theorem lineTail_eq_self {b : List Char} (h : '\n' ∉ b) : lineTail b = b := lineTail_append h []

/-- A text with a line break has a last one. -/
theorem exists_last_break {cs : List Char} (h : '\n' ∈ cs) : ∃ a b, cs = a ++ '\n' :: b ∧ '\n' ∉ b := by
  obtain ⟨b, a, hr, hb⟩ := List.eq_append_cons_of_mem (List.mem_reverse.2 h)
  refine ⟨a.reverse, b.reverse, ?_, fun hm => hb (List.mem_reverse.1 hm)⟩
  rw [← List.reverse_reverse cs, hr]
  simp

/-- A text with a line break has the same last line behind another text. -/
theorem lineTail_append_of_mem {b : List Char} (h : '\n' ∈ b) (a : List Char) : lineTail (a ++ b) = lineTail b := by
  obtain ⟨x, y, rfl, hy⟩ := exists_last_break h
  rw [← List.append_assoc, lineTail_break hy, lineTail_break hy]

/-- A guarded text is guarded behind another text. -/
theorem guarded_append {b : List Char} (h : Guarded b) (a : List Char) : Guarded (a ++ b) := by
  by_cases hn : '\n' ∈ b
  · rw [Guarded, lineTail_append_of_mem hn]
    exact h.imp id fun hb => ⟨List.mem_append_right a hn, hb.2⟩
  · rw [Guarded, lineTail_append hn]
    rcases h with hq | ⟨hm, -⟩
    · rw [lineTail_eq_self hn] at hq
      exact Or.inl (List.mem_append_right _ hq)
    · exact absurd hm hn

/-- The lines of a text are its first line and what stands between its line breaks. -/
theorem textLines_eq (cs : List Char) : ∃ first rest, textLines cs = first :: rest ∧ '\n' ∉ first ∧ first <+: cs ∧
    ∀ line ∈ rest, '\n' ∉ line ∧ ∃ a b, cs = a ++ '\n' :: (line ++ b) := by
  induction cs with
  | nil => exact ⟨[], [], rfl, List.not_mem_nil, List.nil_prefix, nofun⟩
  | cons c cs ih =>
    obtain ⟨first, rest, hlines, hfirst, ⟨tail, htail⟩, hrest⟩ := ih
    by_cases hc : c = '\n'
    · subst hc
      refine ⟨[], first :: rest, by rw [textLines, if_pos rfl, hlines], List.not_mem_nil, List.nil_prefix, ?_⟩
      rw [List.forall_mem_cons]
      refine ⟨⟨hfirst, [], tail, by rw [htail]; rfl⟩, fun line hl => ?_⟩
      obtain ⟨hn, a, b, hab⟩ := hrest line hl
      exact ⟨hn, '\n' :: a, b, by rw [hab]; rfl⟩
    · refine ⟨c :: first, rest, by rw [textLines, if_neg hc, hlines], ?_, ⟨tail, by rw [← htail]; rfl⟩, fun line hl => ?_⟩
      · rw [List.mem_cons, not_or]
        exact ⟨fun heq => hc heq.symm, hfirst⟩
      · obtain ⟨hn, a, b, hab⟩ := hrest line hl
        exact ⟨hn, c :: a, b, by rw [hab]; rfl⟩

/-- What stands before a colon of a line of a quiet text has a quote, or is blank. -/
theorem guarded_line {cs line a b : List Char} (h : Quiet cs) (hl : line ∈ textLines cs) (hab : line = a ++ ':' :: b) :
    '"' ∈ a ∨ ∀ c ∈ a, Text.isBlank c := by
  obtain ⟨first, rest, hlines, hfirst, ⟨tail, htail⟩, hrest⟩ := textLines_eq cs
  rw [hlines, List.mem_cons] at hl
  subst hab
  rcases hl with heq | hl
  · have hn : '\n' ∉ a := fun hm => hfirst (heq ▸ List.mem_append_left _ hm)
    have hg := h a (b ++ tail) (by rw [← htail, ← heq]; simp)
    rw [Guarded, lineTail_eq_self hn] at hg
    exact hg.imp id And.right
  · obtain ⟨hline, x, y, hcs⟩ := hrest _ hl
    have hn : '\n' ∉ a := fun hm => hline (List.mem_append_left _ hm)
    have hg := h (x ++ '\n' :: a) (b ++ y) (by rw [hcs]; simp)
    rw [Guarded, lineTail_break hn] at hg
    exact hg.imp id And.right

/-! ## Fields -/

/-- What is left of a line that looks like a field begins behind blanks and dashes. -/
theorem exists_dropped (line : List Char) :
    ∃ d, line = d ++ dropDash (Text.trimStart line) ∧ ∀ c ∈ d, Text.isBlank c ∨ c = '-' := by
  have hblank : ∀ c ∈ line.takeWhile Text.isBlank, Text.isBlank c := List.all_eq_true.1 List.all_takeWhile
  have hline : line.takeWhile Text.isBlank ++ Text.trimStart line = line := List.takeWhile_append_dropWhile
  unfold dropDash
  split
  · rename_i rest heq
    rw [heq] at hline
    refine ⟨line.takeWhile Text.isBlank ++ ['-', ' '], ?_, ?_⟩
    · rw [List.append_assoc]
      exact hline.symm
    · rw [List.forall_mem_append]
      refine ⟨fun c hc => Or.inl (hblank c hc), ?_⟩
      simp [Text.isBlank]
  · exact ⟨line.takeWhile Text.isBlank, hline.symm, fun c hc => Or.inl (hblank c hc)⟩

/-- A character other than a blank is not trimmed. -/
theorem mem_trimEnd {c : Char} {cs : List Char} (h : c ∈ cs) (hc : Text.isBlank c = false) : c ∈ Text.trimEnd cs := by
  have hm : c ∈ cs.reverse.takeWhile Text.isBlank ++ cs.reverse.dropWhile Text.isBlank := by
    rw [List.takeWhile_append_dropWhile]
    exact List.mem_reverse.2 h
  rw [Text.trimEnd, List.mem_reverse]
  rcases List.mem_append.1 hm with ht | hd
  · have hb := List.all_eq_true.1 List.all_takeWhile c ht
    rw [hc] at hb
    cases hb
  · exact hd

/-- A line looks like no field where a quote, or nothing but blanks, stands before each of its colons. -/
theorem isFieldLine_eq_false {line : List Char}
    (h : ∀ a b, line = a ++ ':' :: b → '"' ∈ a ∨ ∀ c ∈ a, Text.isBlank c) : isFieldLine line = false := by
  obtain ⟨d, hline, hd⟩ := exists_dropped line
  unfold isFieldLine
  simp only
  by_cases hcolon : ':' ∈ dropDash (Text.trimStart line)
  · obtain ⟨key, rest, hfield, hkey⟩ := List.eq_append_cons_of_mem hcolon
    have hk := Span.bne_of_notMem hkey
    have hc : ∀ c ∈ (':' :: rest).head?, (c != ':') = false := by simp
    rw [hfield] at hline ⊢
    rw [Span.takeWhile_append hk hc, Span.dropWhile_append hk hc]
    simp only
    rcases h (d ++ key) rest (by rw [hline, List.append_assoc]) with hquote | hblank
    · have hm : '"' ∈ key := by
        rcases List.mem_append.1 hquote with hm | hm
        · rcases hd _ hm with hb | hb
          · cases hb
          · cases hb
        · exact hm
      have hall : (Text.trimEnd key).all isKeyChar = false :=
        List.all_eq_false.2 ⟨'"', mem_trimEnd hm rfl, by decide +kernel⟩
      rw [hall, Bool.and_false, Bool.false_and]
    · rw [Text.trimEnd_of_isBlank fun c hc => hblank c (List.mem_append_right d hc)]
      rfl
  · have hdrop : (dropDash (Text.trimStart line)).dropWhile (· != ':') = [] := by
      rw [List.dropWhile_eq_nil_iff]
      intro c hc
      rw [bne_iff_ne]
      rintro rfl
      exact hcolon hc
    rw [hdrop]

/-- No line of a quiet text looks like a field. -/
theorem not_field_of_quiet {cs : List Char} (h : Quiet cs) : ∀ line ∈ textLines cs, isFieldLine line = false :=
  fun _ hl => isFieldLine_eq_false fun _ _ hab => guarded_line h hl hab

/-! ## Parts of a JSON text -/

/-- A text without a colon is quiet. -/
theorem quiet_of_not_mem {cs : List Char} (h : ':' ∉ cs) : Quiet cs := by
  rintro a b rfl
  exact absurd (List.mem_append_right a List.mem_cons_self) h

/-- Quiet texts are quiet one behind another. -/
theorem quiet_append {cs ds : List Char} (hc : Quiet cs) (hd : Quiet ds) : Quiet (cs ++ ds) := by
  intro a b hab
  -- A colon of the second text is guarded there, so it is whatever stands before that text.
  rcases List.append_eq_append_iff.1 hab with ⟨x, ha, hx⟩ | ⟨x, hcs, hx⟩
  · rw [ha]
    exact guarded_append (hd x b hx) cs
  · cases x with
    | nil =>
      have hg := guarded_append (hd [] b hx.symm) a
      rwa [List.append_nil] at hg
    | cons c x =>
      cases hx
      exact hc a x hcs

/-- A colon may stand behind what is guarded. -/
theorem quiet_colon {cs : List Char} (hc : Quiet cs) (hg : Guarded cs) : Quiet (cs ++ [':']) := by
  intro a b hab
  rcases List.append_eq_append_iff.1 hab with ⟨x, ha, hx⟩ | ⟨x, hcs, hx⟩
  · cases x with
    | nil =>
      rw [ha, List.append_nil]
      exact hg
    | cons c x => cases x <;> cases hx
  · cases x with
    | nil =>
      rw [hcs, List.append_nil] at hg
      exact hg
    | cons c x =>
      cases hx
      exact hc a x hcs

/-- A text that begins with a quote and has no line break is quiet. -/
theorem quiet_quoted {cs : List Char} (h : '\n' ∉ '"' :: cs) : Quiet ('"' :: cs) := by
  intro a b hab
  rw [hab, List.mem_append, not_or] at h
  cases a with
  | nil => cases hab
  | cons c a =>
    cases hab
    rw [Guarded, lineTail_eq_self h.1]
    exact Or.inl List.mem_cons_self

/-- A line break is no hexadecimal digit. -/
theorem no_break_of_hexUnit? {a b c d : Char} {n : Nat} (h : hexUnit? a b c d = some n) : '\n' ∉ [a, b, c, d] := by
  simp only [hexUnit?, bind, Option.bind_eq_some_iff] at h
  obtain ⟨x, ha, y, hb, z, hc, w, hd, -⟩ := h
  have hne : ∀ {c : Char} {n : Nat}, hexValue? c = some n → '\n' ≠ c := by
    rintro c n hn rfl
    cases hn
  simp only [List.mem_cons, List.not_mem_nil, or_false, not_or]
  exact ⟨hne ha, hne hb, hne hc, hne hd⟩

/-- Between the quotes of a string there is no line break. -/
theorem no_break_of_spellsPieces {ps : List Piece} {body : List Char} (h : SpellsPieces ps body) : '\n' ∉ body := by
  induction h with
  | nil => exact List.not_mem_nil
  | char _ _ hc _ ih =>
    rw [List.mem_cons, not_or]
    refine ⟨?_, ih⟩
    rintro rfl
    exact absurd hc (by decide)
  | short he _ ih =>
    simp only [List.mem_cons, not_or]
    refine ⟨by decide, ?_, ih⟩
    rintro rfl
    cases he
  | @unit a b c d n ps cs hn _ ih =>
    have hbreak := no_break_of_hexUnit? hn
    have hbody : '\n' ∉ ['\\', 'u'] ++ ([a, b, c, d] ++ cs) := by
      rw [List.mem_append, List.mem_append, not_or, not_or]
      exact ⟨by decide, hbreak, ih⟩
    exact hbody

/-- A string has no line break. -/
theorem no_break_of_spellsString {text : Option String} {cs : List Char} (h : SpellsString text cs) : '\n' ∉ cs := by
  obtain ⟨ps, body, hb, -, rfl⟩ := h
  simp [no_break_of_spellsPieces hb]

/-- White space of the grammar is blank. -/
theorem isBlank_of_space {ws : List Char} (h : Space ws) : ∀ c ∈ ws, Text.isBlank c := by
  intro c hc
  have hs := h c hc
  simp only [isSpace, Bool.or_eq_true, beq_iff_eq] at hs
  rcases hs with ((rfl | rfl) | rfl) | rfl <;> rfl

/-- White space is quiet. -/
theorem quiet_of_space {ws : List Char} (h : Space ws) : Quiet ws :=
  quiet_of_not_mem fun hm => absurd (h ':' hm) (by decide)

/-- A string is quiet. -/
theorem quiet_of_spellsString {text : Option String} {cs : List Char} (h : SpellsString text cs) : Quiet cs := by
  have hn := no_break_of_spellsString h
  obtain ⟨ps, body, -, -, rfl⟩ := h
  exact quiet_quoted hn

/-- The key of a member is quiet with its colon, wherever the colon stands. -/
theorem quiet_key {key : Option String} {name behind : List Char} (hk : SpellsString key name) (hb : Space behind) :
    Quiet (name ++ behind ++ [':']) := by
  have hn := no_break_of_spellsString hk
  refine quiet_colon (quiet_append (quiet_of_spellsString hk) (quiet_of_space hb)) ?_
  -- The colon is on a line of its own with white space, or else on that of its key, whose quotes are on one line.
  by_cases hm : '\n' ∈ behind
  · right
    refine ⟨List.mem_append_right name hm, ?_⟩
    rw [lineTail_append_of_mem hm]
    obtain ⟨x, y, rfl, hy⟩ := exists_last_break hm
    rw [lineTail_break hy]
    exact fun c hc => isBlank_of_space hb c (List.mem_append_right x (List.mem_cons_of_mem _ hc))
  · left
    rw [lineTail_append hm, lineTail_eq_self hn]
    obtain ⟨ps, body, -, -, rfl⟩ := hk
    exact List.mem_append_left behind List.mem_cons_self

/-- White space around a quiet text is quiet with it. -/
theorem quiet_padded {before cs after : List Char} (hb : Space before) (h : Quiet cs) (ha : Space after) :
    Quiet (before ++ (cs ++ after)) :=
  quiet_append (quiet_of_space hb) (quiet_append h (quiet_of_space ha))

/-- Brackets around a quiet text are quiet with it. -/
theorem quiet_enclosed {first last : Char} {cs : List Char} (hf : ':' ≠ first) (hl : ':' ≠ last) (h : Quiet cs) :
    Quiet (first :: (cs ++ [last])) := by
  have hfirst : Quiet [first] := quiet_of_not_mem fun hm => hf (List.mem_singleton.1 hm)
  have hlast : Quiet [last] := quiet_of_not_mem fun hm => hl (List.mem_singleton.1 hm)
  exact quiet_append hfirst (quiet_append h hlast)

/-- A comma before a quiet text is quiet with it. -/
theorem quiet_comma {cs : List Char} (h : Quiet cs) : Quiet (',' :: cs) := by
  have hcomma : Quiet [','] := quiet_of_not_mem (by decide)
  exact quiet_append hcomma h

/-- Digits have no colon. -/
theorem no_colon_of_digits {cs : List Char} (h : Digits cs) : ':' ∉ cs := fun hm => absurd (h.2 ':' hm) (by decide)

/-- The digits behind a point have no colon. -/
theorem no_colon_of_fraction {fraction : Option (List Char)} {cs : List Char} (h : SpellsFraction fraction cs) : ':' ∉ cs := by
  cases fraction with
  | none =>
    obtain rfl : cs = [] := h
    exact List.not_mem_nil
  | some digits =>
    obtain ⟨hd, rfl⟩ := h
    rw [List.mem_cons, not_or]
    exact ⟨by decide, no_colon_of_digits hd⟩

/-- An exponent has no colon. -/
theorem no_colon_of_exponent {exponent : Option (Bool × List Char)} {cs : List Char} (h : SpellsExponent exponent cs) :
    ':' ∉ cs := by
  cases exponent with
  | none =>
    obtain rfl : cs = [] := h
    exact List.not_mem_nil
  | some e =>
    obtain ⟨negative, digits⟩ := e
    obtain ⟨hd, mark, sign, hmark, hsign, rfl⟩ := h
    have hs : ':' ∉ sign := by
      cases negative with
      | true =>
        obtain rfl : sign = ['-'] := hsign
        decide
      | false => rcases hsign with rfl | rfl <;> decide
    rw [List.mem_cons, List.mem_append, not_or, not_or]
    refine ⟨?_, hs, no_colon_of_digits hd⟩
    rcases hmark with rfl | rfl <;> decide

/-- A number is quiet, since it has no colon. -/
theorem quiet_of_spellsNumber {l : NumberLiteral} {cs : List Char} (h : SpellsNumber l cs) : Quiet cs := by
  obtain ⟨hdigits, -, fraction, exponent, hf, he, rfl⟩ := h
  have hminus : ':' ∉ (if l.negative then ['-'] else []) := by
    cases l.negative <;> decide
  refine quiet_of_not_mem ?_
  rw [List.mem_append, List.mem_append, List.mem_append, not_or, not_or, not_or]
  exact ⟨hminus, no_colon_of_digits hdigits, no_colon_of_fraction hf, no_colon_of_exponent he⟩

mutual
/-- A value is quiet. -/
theorem quiet_of_spells {j : Json} {cs : List Char} : Spells j cs → Quiet cs
  | .null | .true | .false => quiet_of_not_mem (by decide)
  | .number hn => quiet_of_spellsNumber hn
  | .string hs => quiet_of_spellsString hs
  | .emptyArray hws => quiet_enclosed (by decide) (by decide) (quiet_of_space hws)
  | .array hi => quiet_enclosed (by decide) (by decide) (quiet_of_spellsItems hi)
  | .emptyObject hws => quiet_enclosed (by decide) (by decide) (quiet_of_space hws)
  | .object hm => quiet_enclosed (by decide) (by decide) (quiet_of_spellsMembers hm)

/-- The items of an array are quiet. -/
theorem quiet_of_spellsItems {items : List Json} {cs : List Char} : SpellsItems items cs → Quiet cs
  | .last hb hv ha => quiet_padded hb (quiet_of_spells hv) ha
  | .cons hb hv ha hi => by
    have hitem := quiet_append (quiet_padded hb (quiet_of_spells hv) ha) (quiet_comma (quiet_of_spellsItems hi))
    simpa only [List.append_assoc] using hitem

/-- The members of an object are quiet. -/
theorem quiet_of_spellsMembers {members : List (Option String × Json)} {cs : List Char} : SpellsMembers members cs → Quiet cs
  | .last hb hk hn hg hv ha => by
    have hkey := quiet_append (quiet_of_space hb) (quiet_key hk hn)
    have hmember := quiet_append hkey (quiet_padded hg (quiet_of_spells hv) ha)
    simpa only [List.append_assoc, List.singleton_append] using hmember
  | .cons hb hk hn hg hv ha hm => by
    have hkey := quiet_append (quiet_of_space hb) (quiet_key hk hn)
    have hmember := quiet_append hkey (quiet_padded hg (quiet_of_spells hv) ha)
    have hrest := quiet_append hmember (quiet_comma (quiet_of_spellsMembers hm))
    simpa only [List.append_assoc, List.cons_append, List.nil_append] using hrest
end

/-! ## Ends of a JSON text -/

/-- A digit is neither a blank nor an opening bracket. -/
theorem ends_of_isDigit {c : Char} (h : c.isDigit) : Text.isBlank c = false ∧ c ≠ '\x7b' ∧ c ≠ '[' := by
  refine ⟨?_, ?_, ?_⟩
  · simp only [Char.isDigit, Bool.and_eq_true, decide_eq_true_eq, ge_iff_le, UInt32.le_iff_toNat_le] at h
    have hn : 48 ≤ c.toNat ∧ c.toNat ≤ 57 := h
    simp only [Text.isBlank]
    simp
    omega
  · rintro rfl
    cases h
  · rintro rfl
    cases h

/-- A number begins with a character other than a blank or an opening bracket. -/
theorem head?_spellsNumber {l : NumberLiteral} {cs : List Char} (h : SpellsNumber l cs) :
    ∃ c, cs.head? = some c ∧ Text.isBlank c = false ∧ c ≠ '\x7b' ∧ c ≠ '[' := by
  obtain ⟨c, cs, rfl, hc⟩ := GrammarAux.exists_head_number h
  refine ⟨c, rfl, ?_⟩
  rcases hc with hc | rfl
  · exact ends_of_isDigit hc
  · decide

/-- A number ends in digits. -/
theorem exists_last_digits {l : NumberLiteral} {cs : List Char} (h : SpellsNumber l cs) :
    ∃ before digits, cs = before ++ digits ∧ Digits digits := by
  obtain ⟨hdigits, -, fraction, exponent, hf, he, rfl⟩ := h
  obtain ⟨negative, whole, fractionDigits, exponentDigits⟩ := l
  simp only at hdigits hf he ⊢
  cases exponentDigits with
  | some e =>
    obtain ⟨minus, digits⟩ := e
    obtain ⟨hd, mark, sign, -, -, rfl⟩ := he
    exact ⟨(if negative then ['-'] else []) ++ (whole ++ (fraction ++ mark :: sign)), digits, by simp, hd⟩
  | none =>
    obtain rfl : exponent = [] := he
    cases fractionDigits with
    | some digits =>
      obtain ⟨hd, rfl⟩ := hf
      exact ⟨(if negative then ['-'] else []) ++ (whole ++ ['.']), digits, by simp, hd⟩
    | none =>
      obtain rfl : fraction = [] := hf
      exact ⟨if negative then ['-'] else [], whole, by simp, hdigits⟩

/-- What is enclosed ends in its last character. -/
theorem getLast?_enclosed (first last : Char) (cs : List Char) : (first :: (cs ++ [last])).getLast? = some last := by
  rw [← List.cons_append]
  exact List.getLast?_concat

/-- A value begins and ends with characters other than blanks. -/
theorem ends_of_spells {j : Json} {cs : List Char} (h : Spells j cs) : ∃ first last, cs.head? = some first ∧
    cs.getLast? = some last ∧ Text.isBlank first = false ∧ Text.isBlank last = false := by
  cases h with
  | null => exact ⟨'n', 'l', rfl, rfl, rfl, rfl⟩
  | true => exact ⟨'t', 'e', rfl, rfl, rfl, rfl⟩
  | false => exact ⟨'f', 'e', rfl, rfl, rfl, rfl⟩
  | number hn =>
    obtain ⟨first, hf, hfb, -⟩ := head?_spellsNumber hn
    obtain ⟨before, digits, rfl, hne, hd⟩ := exists_last_digits hn
    obtain ⟨last, hl⟩ := Option.ne_none_iff_exists'.1 (fun hnone => hne (List.getLast?_eq_none_iff.1 hnone))
    refine ⟨first, last, hf, ?_, hfb, (ends_of_isDigit (hd last (List.mem_of_getLast? hl))).1⟩
    rw [List.getLast?_append, hl]
    rfl
  | string hs =>
    obtain ⟨ps, body, -, -, rfl⟩ := hs
    exact ⟨'"', '"', rfl, List.getLast?_concat, rfl, rfl⟩
  | emptyArray | array => exact ⟨'[', ']', rfl, getLast?_enclosed _ _ _, rfl, rfl⟩
  | emptyObject | object => exact ⟨'\x7b', '\x7d', rfl, getLast?_enclosed _ _ _, rfl, rfl⟩

/-- An object stands in braces, and no other value does. -/
theorem isEnclosed_brace {j : Json} {cs : List Char} (h : Spells j cs) :
    isEnclosed '\x7b' '\x7d' cs = (match j with | .object _ => true | _ => false) := by
  cases h with
  | null | true | false | emptyArray | array => rfl
  | number hn =>
    obtain ⟨c, hc, -, hne, -⟩ := head?_spellsNumber hn
    simp [isEnclosed, hc, hne]
  | string hs =>
    obtain ⟨ps, body, -, -, rfl⟩ := hs
    rfl
  | emptyObject | object => simp [isEnclosed, getLast?_enclosed]

/-- An array stands in brackets, and no other value does. -/
theorem isEnclosed_bracket {j : Json} {cs : List Char} (h : Spells j cs) :
    isEnclosed '[' ']' cs = (match j with | .array _ => true | _ => false) := by
  cases h with
  | null | true | false | emptyObject | object => rfl
  | number hn =>
    obtain ⟨c, hc, -, -, hne⟩ := head?_spellsNumber hn
    simp [isEnclosed, hc, hne]
  | string hs =>
    obtain ⟨ps, body, -, -, rfl⟩ := hs
    rfl
  | emptyArray | array => simp [isEnclosed, getLast?_enclosed]

/-- Blanks around a value are trimmed from it. -/
theorem trim_around {j : Json} {before mid after : List Char} (h : Spells j mid) (hb : ∀ c ∈ before, Text.isBlank c = true)
    (ha : ∀ c ∈ after, Text.isBlank c = true) : Text.trim (before ++ (mid ++ after)) = mid := by
  obtain ⟨first, last, hf, hl, hfb, hlb⟩ := ends_of_spells h
  have ht : Text.trim (before ++ (mid ++ after)) = Text.trim (mid ++ after) :=
    congrArg Text.trimEnd (List.dropWhile_append_of_pos hb)
  rw [ht, Text.trim_append hf hl hfb hlb ha]

/-- White space around a value is what is trimmed from its text. -/
theorem spells_trim {j : Json} {cs : List Char} (h : SpellsText j cs) : Spells j (Text.trim cs) := by
  obtain ⟨before, mid, after, hb, hv, ha, rfl⟩ := h
  rw [trim_around hv (isBlank_of_space hb) (isBlank_of_space ha)]
  exact hv

end LinesAux

open Json LinesAux

/-- The texts that are read as JSON are those of the grammar, with white space around a value and inside it. No line of such a
text, trimmed, looks like a field, whatever its keys and its strings hold. So as one pattern it is taken for JSON where its value
is an object, and for nothing else, and as a list where its value is an array. -/
theorem json_never_taken_for_yaml (text : String) (j : Json) :
    (Json.ofText? text = some j ↔ SpellsText j text.toList) ∧
      (SpellsText j text.toList →
        (∀ line ∈ textLines (Text.trim text.toList), isFieldLine line = false) ∧
          Format.detect text = (match j with | .object _ => some .json | _ => none) ∧
          Format.detectList text = (match j with | .array _ => some .json | _ => none)) := by
  refine ⟨ofText?_eq_some_iff, ?_⟩
  intro h
  have hv := spells_trim h
  have hlines := not_field_of_quiet (quiet_of_spells hv)
  have hfield : hasFieldLine (Text.trim text.toList) = false := by
    rw [hasFieldLine, List.any_eq_false]
    intro line hl
    rw [hlines line hl]
    exact Bool.false_ne_true
  refine ⟨hlines, ?_, ?_⟩
  · simp only [Format.detect, Format.detectEnclosed, isEnclosed_brace hv, hfield, Bool.false_eq_true, if_false]
    cases j <;> rfl
  · simp only [Format.detectList, Format.detectEnclosed, isEnclosed_bracket hv, hfield, Bool.false_eq_true, if_false]
    cases j <;> rfl

/-- Keys and strings that read like fields and like items, with line breaks between a key and its colon and behind the colon. -/
theorem json_never_taken_for_yaml_with_fields_inside :
    let text := "\n\x7b \"Type: a\"\r\n :\n[ \"- Id: b\" ], \"\"\n: -1e+2 \x7d\t"
    let j : Json := .object
      [(some "Type: a", .array [.string (some "- Id: b")]), (some "", .number ⟨true, ['1'], none, some (false, ['2'])⟩)]
    SpellsText j text.toList ∧ (∀ line ∈ textLines (Text.trim text.toList), isFieldLine line = false) ∧
      Format.detect text = some .json ∧ Format.detectList text = none := by
  intro text j
  obtain ⟨hread, hnever⟩ := json_never_taken_for_yaml text j
  have hs : SpellsText j text.toList := by
    rw [← hread, Json.ofText?]
    simp only [text, String.reduceToList]
    rfl
  exact ⟨hs, hnever hs⟩

end RegexTree

import Mathlib.Data.List.DropRight
import RegexTree.Proofs.Json.Grammar
import RegexTree.Proofs.Span

/-!
# The reader reads the grammar

A text of a value is read as this value, so the reader takes exactly the texts of the grammar (`ofText?_eq_some_iff`). A number
ends where what stands behind it cannot belong to it, and twice the length of a text is fuel enough for the values inside it.
-/

namespace RegexTree.Json

namespace GrammarAux

/-! ## White space -/

/-- Leading white space is skipped up to the first other character. -/
theorem skipSpace_append {ws : List Char} (h : Space ws) (cs : List Char) : skipSpace (ws ++ cs) = skipSpace cs :=
  List.dropWhile_append_of_pos h

/-- Nothing is skipped before a character that is no white space. -/
theorem skipSpace_cons {c : Char} (h : isSpace c = false) (cs : List Char) : skipSpace (c :: cs) = c :: cs := by
  simp [skipSpace, h]

/-- White space is skipped at once. -/
theorem skipSpace_skipSpace (cs : List Char) : skipSpace (skipSpace cs) = skipSpace cs := List.dropWhile_idempotent isSpace cs

/-- White space before a character that is none is skipped. -/
theorem skipSpace_before {ws : List Char} {c : Char} (hws : Space ws) (hc : isSpace c = false) (rest : List Char) :
    skipSpace (ws ++ c :: rest) = c :: rest := by
  rw [skipSpace_append hws, skipSpace_cons hc]

/-! ## Strings and numbers -/

/-- A short escape is one piece. -/
theorem readPieces_short {e c : Char} (h : shortEscape? e = some c) (rest : List Char) :
    readPieces ('\\' :: e :: rest) = (readPieces rest).map fun r => (.char c :: r.1, r.2) := by
  have he : e ≠ 'u' := by
    rintro rfl
    cases h
  rw [readPieces, h]
  · cases readPieces rest <;> rfl
  · intro a b c d rest' heq
    exact absurd heq he

/-- An escape of four digits is one piece. -/
theorem readPieces_unit {a b c d : Char} {n : Nat} (h : hexUnit? a b c d = some n) (rest : List Char) :
    readPieces ('\\' :: 'u' :: a :: b :: c :: d :: rest) = (readPieces rest).map fun r => (.unit n :: r.1, r.2) := by
  rw [readPieces, h]
  cases readPieces rest <;> rfl

/-- A character that needs no escape is one piece. -/
theorem readPieces_plain {c : Char} (hq : c ≠ '"') (hs : c ≠ '\\') (hc : ¬c.toNat < 0x20) (rest : List Char) :
    readPieces (c :: rest) = (readPieces rest).map fun r => (.char c :: r.1, r.2) := by
  rw [readPieces]
  · have hg : c ≠ '\\' ∧ 0x20 ≤ c.toNat := ⟨hs, by omega⟩
    simp only [guard, if_pos hg]
    cases readPieces rest <;> rfl
  · exact hq
  · intro a b c d rest' heq
    exact absurd heq hs
  · intro e rest' heq
    exact absurd heq hs

/-- The pieces that are spelled are read up to the closing quote. -/
theorem readPieces_of_spells {ps : List Piece} {body : List Char} (h : SpellsPieces ps body) (rest : List Char) :
    readPieces (body ++ '"' :: rest) = some (ps, rest) := by
  induction h with
  | nil => rfl
  | char hq hs hc _ ih =>
    rw [List.cons_append, readPieces_plain hq hs (Nat.not_lt.2 hc), ih]
    rfl
  | short he _ ih =>
    rw [List.cons_append, List.cons_append, readPieces_short he, ih]
    rfl
  | unit hn _ ih =>
    simp only [List.cons_append]
    rw [readPieces_unit hn, ih]
    rfl

/-- A string that is spelled is read from behind its opening quote. -/
theorem readString_of_spells {text : Option String} {quoted : List Char} (h : SpellsString text quoted) (rest : List Char) :
    ∃ cs, quoted ++ rest = '"' :: cs ∧ readString cs = some (text, rest) := by
  obtain ⟨ps, body, hb, rfl, rfl⟩ := h
  refine ⟨body ++ '"' :: rest, by simp, ?_⟩
  rw [readString, readPieces_of_spells hb]
  rfl

/-- Digits are read as far as they go. -/
theorem readDigits_append {ds : List Char} (hne : ds ≠ []) (hd : ∀ c ∈ ds, c.isDigit) {rest : List Char}
    (hr : ∀ c ∈ rest.head?, c.isDigit = false) : readDigits (ds ++ rest) = some (ds, rest) := by
  simp only [readDigits, Span.takeWhile_append hd hr, Span.dropWhile_append hd hr, List.isEmpty_eq_false_iff.2 hne]
  rfl

/-- Digits begin with a digit. -/
theorem exists_digit {cs : List Char} (h : Digits cs) : ∃ c cs', cs = c :: cs' ∧ c.isDigit := by
  obtain ⟨hne, hd⟩ := h
  cases cs with
  | nil => exact absurd rfl hne
  | cons c cs => exact ⟨c, cs, rfl, hd c List.mem_cons_self⟩

/-- A fraction that is spelled is read. -/
theorem readFraction_of_spells {fraction : Option (List Char)} {cs rest : List Char} (h : SpellsFraction fraction cs)
    (hr : ∀ c ∈ rest.head?, c.isDigit = false ∧ c ≠ '.') : readFraction (cs ++ rest) = some (fraction, rest) := by
  cases fraction with
  | none =>
    obtain rfl : cs = [] := h
    cases rest with
    | nil => rfl
    | cons c rest =>
      rw [List.nil_append, readFraction]
      rintro rest' heq
      cases heq
      exact absurd rfl (hr '.' rfl).2
  | some digits =>
    obtain ⟨⟨hne, hd⟩, rfl⟩ := h
    rw [List.cons_append, readFraction, readDigits_append hne hd fun c hc => (hr c hc).1]
    rfl

/-- A sign that is spelled is read, where a digit stands behind it. -/
theorem readSign_of_spells {negative : Bool} {sign cs : List Char} {c : Char}
    (h : if negative then sign = ['-'] else sign = [] ∨ sign = ['+']) (hc : c.isDigit) :
    readSign (sign ++ c :: cs) = (negative, c :: cs) := by
  cases negative with
  | true =>
    obtain rfl : sign = ['-'] := h
    rfl
  | false =>
    rcases h with rfl | rfl
    · rw [List.nil_append, readSign]
      · rintro rest heq
        cases heq
        cases hc
      · rintro rest heq
        cases heq
        cases hc
    · rfl

/-- An exponent that is spelled is read. -/
theorem readExponent_of_spells {exponent : Option (Bool × List Char)} {cs rest : List Char} (h : SpellsExponent exponent cs)
    (hr : ∀ c ∈ rest.head?, c.isDigit = false ∧ c ≠ 'e' ∧ c ≠ 'E') : readExponent (cs ++ rest) = some (exponent, rest) := by
  cases exponent with
  | none =>
    obtain rfl : cs = [] := h
    cases rest with
    | nil => rfl
    | cons c rest =>
      obtain ⟨-, he, hE⟩ := hr c rfl
      simp [readExponent, he, hE]
  | some e =>
    obtain ⟨negative, digits⟩ := e
    obtain ⟨hdigits, mark, sign, hm, hsign, rfl⟩ := h
    have hmark : (mark == 'e' || mark == 'E') = true := by simpa using hm
    obtain ⟨c, ds, hds, hc⟩ := exists_digit hdigits
    have hs : readSign (sign ++ (digits ++ rest)) = (negative, digits ++ rest) := by
      rw [hds]
      exact readSign_of_spells hsign hc
    have hd := readDigits_append hdigits.1 hdigits.2 fun c hc => (hr c hc).1
    rw [List.cons_append, List.append_assoc, readExponent, if_pos hmark]
    simp only [hs, hd, bind, Option.bind]
    rfl

/-- What begins with a fraction or with an exponent, or with what cannot belong to a number, does not begin with a digit. -/
theorem head?_exponent {exponent : Option (Bool × List Char)} {cs rest : List Char} (h : SpellsExponent exponent cs)
    (hr : ∀ c ∈ rest.head?, c.isDigit = false ∧ c ≠ '.') : ∀ c ∈ (cs ++ rest).head?, c.isDigit = false ∧ c ≠ '.' := by
  cases exponent with
  | none =>
    obtain rfl : cs = [] := h
    exact hr
  | some e =>
    obtain ⟨-, mark, sign, hm, -, rfl⟩ := h
    intro c hc
    cases hc
    rcases hm with rfl | rfl <;> decide

/-- What begins with a fraction does not begin with a digit. -/
theorem head?_fraction {fraction : Option (List Char)} {cs rest : List Char} (h : SpellsFraction fraction cs)
    (hr : ∀ c ∈ rest.head?, c.isDigit = false) : ∀ c ∈ (cs ++ rest).head?, c.isDigit = false := by
  cases fraction with
  | none =>
    obtain rfl : cs = [] := h
    exact hr
  | some digits =>
    obtain ⟨-, rfl⟩ := h
    intro c hc
    cases hc
    decide

/-- A number begins with a digit or with a minus. -/
theorem exists_head_number {l : NumberLiteral} {cs : List Char} (h : SpellsNumber l cs) :
    ∃ c cs', cs = c :: cs' ∧ (c.isDigit ∨ c = '-') := by
  obtain ⟨hdigits, -, fraction, exponent, -, -, rfl⟩ := h
  obtain ⟨c, ds, hds, hc⟩ := exists_digit hdigits
  cases l.negative with
  | true => exact ⟨'-', _, rfl, Or.inr rfl⟩
  | false => exact ⟨c, ds ++ (fraction ++ exponent), by rw [hds]; rfl, Or.inl hc⟩

/-- What may stand behind a value: nothing, white space, a comma or a closing bracket. -/
def Follows (rest : List Char) : Prop := ∀ c ∈ rest.head?, isSpace c ∨ c = ',' ∨ c = ']' ∨ c = '\x7d'

/-- White space before what may stand behind a value may stand behind it too. -/
theorem follows_append {ws rest : List Char} (h : Space ws) (hr : Follows rest) : Follows (ws ++ rest) := by
  cases ws with
  | nil => exact hr
  | cons w ws =>
    intro c hc
    cases hc
    exact Or.inl (h w List.mem_cons_self)

/-- A comma or a closing bracket may stand behind a value. -/
theorem follows_cons {c : Char} (h : c = ',' ∨ c = ']' ∨ c = '\x7d') (rest : List Char) : Follows (c :: rest) := by
  intro d hd
  cases hd
  exact Or.inr h

/-- What may stand behind a value cannot belong to a number. -/
theorem Follows.notNumber {rest : List Char} (h : Follows rest) :
    ∀ c ∈ rest.head?, c.isDigit = false ∧ c ≠ '.' ∧ c ≠ 'e' ∧ c ≠ 'E' := by
  intro c hc
  rcases h c hc with hs | rfl | rfl | rfl
  · simp only [isSpace, Bool.or_eq_true, beq_iff_eq] at hs
    rcases hs with ((rfl | rfl) | rfl) | rfl <;> decide
  all_goals decide

/-- A number that is spelled is read, where nothing behind it can belong to a number. -/
theorem readNumber_of_spells {l : NumberLiteral} {cs rest : List Char} (h : SpellsNumber l cs) (hr : Follows rest) :
    readNumber (cs ++ rest) = some (l, rest) := by
  obtain ⟨hdigits, hzero, fraction, exponent, hf, he, rfl⟩ := h
  obtain ⟨negative, whole, fractionDigits, exponentDigits⟩ := l
  have hexponent := head?_exponent he fun c hc => ⟨(hr.notNumber c hc).1, (hr.notNumber c hc).2.1⟩
  have hfraction := head?_fraction hf fun c hc => (hexponent c hc).1
  -- Up to the fraction, all that matters of what stands behind the digits is that it begins with none.
  obtain ⟨tail, htail⟩ : ∃ tail, tail = fraction ++ (exponent ++ rest) := ⟨_, rfl⟩
  rw [← htail] at hfraction
  have hm : readMinus ((if negative then ['-'] else []) ++ (whole ++ tail)) = (negative, whole ++ tail) := by
    cases negative with
    | true => rfl
    | false =>
      obtain ⟨c, ds, hds, hc⟩ := exists_digit hdigits
      simp only at hds
      rw [hds, if_neg Bool.false_ne_true, List.nil_append, List.cons_append, readMinus]
      rintro rest' heq
      cases heq
      cases hc
  have hw : readWhole (whole ++ tail) = some (whole, tail) := by
    rw [readWhole, readDigits_append hdigits.1 hdigits.2 hfraction]
    simp only [bind, Option.bind, guard, if_pos hzero]
    rfl
  simp only [List.append_assoc, ← htail]
  rw [readNumber]
  simp only [hm, hw, bind, Option.bind]
  rw [htail, readFraction_of_spells hf hexponent]
  simp only
  rw [readExponent_of_spells he fun c hc => ⟨(hr.notNumber c hc).1, (hr.notNumber c hc).2.2⟩]
  rfl

/-! ## Values -/

/-- A value is spelled from a character on that is neither white space nor a closing bracket. -/
theorem exists_head {j : Json} {cs : List Char} (h : Spells j cs) :
    ∃ c cs', cs = c :: cs' ∧ isSpace c = false ∧ c ≠ ']' := by
  cases h with
  | null => exact ⟨'n', _, rfl, rfl, by decide⟩
  | true => exact ⟨'t', _, rfl, rfl, by decide⟩
  | false => exact ⟨'f', _, rfl, rfl, by decide⟩
  | @number l cs hn =>
    obtain ⟨c, cs', rfl, hc⟩ := exists_head_number hn
    rcases hc with hc | rfl
    · refine ⟨c, cs', rfl, ?_, ?_⟩
      · cases hs : isSpace c
        · rfl
        · simp only [isSpace, Bool.or_eq_true, beq_iff_eq] at hs
          rcases hs with ((rfl | rfl) | rfl) | rfl <;> cases hc
      · rintro rfl
        cases hc
    · exact ⟨'-', cs', rfl, rfl, by decide⟩
  | string hs =>
    obtain ⟨ps, body, -, -, rfl⟩ := hs
    exact ⟨'"', _, rfl, rfl, by decide⟩
  | emptyArray | array => exact ⟨'[', _, rfl, rfl, by decide⟩
  | emptyObject | object => exact ⟨'\x7b', _, rfl, rfl, by decide⟩

/-- White space before a value is skipped. -/
theorem skipSpace_spells {ws cs : List Char} {j : Json} (hws : Space ws) (h : Spells j cs) (rest : List Char) :
    skipSpace (ws ++ (cs ++ rest)) = cs ++ rest := by
  obtain ⟨c, cs', rfl, hc, -⟩ := exists_head h
  rw [skipSpace_append hws, List.cons_append, skipSpace_cons hc]

/-- An array that does not close at once is read item by item. -/
theorem readValue_array {fuel : Nat} {cs : List Char} (h : (skipSpace cs).head? ≠ some ']') :
    readValue (fuel + 1) ('[' :: cs) = (readItems fuel cs).map fun r => (.array r.1, r.2) := by
  have hs : readItems fuel (skipSpace cs) = readItems fuel cs := by
    cases fuel with
    | zero => rfl
    | succ fuel => rw [readItems, readItems, skipSpace_skipSpace]
  rw [readValue, ← hs]
  split
  · rename_i rest heq
    rw [heq] at h
    exact absurd rfl h
  · cases readItems fuel (skipSpace cs) <;> rfl

/-- An object that does not close at once is read member by member. -/
theorem readValue_object {fuel : Nat} {cs : List Char} (h : (skipSpace cs).head? ≠ some '\x7d') :
    readValue (fuel + 1) ('\x7b' :: cs) = (readMembers fuel cs).map fun r => (.object r.1, r.2) := by
  have hs : readMembers fuel (skipSpace cs) = readMembers fuel cs := by
    cases fuel with
    | zero => rfl
    | succ fuel => rw [readMembers, readMembers, skipSpace_skipSpace]
  rw [readValue, ← hs]
  split
  · rename_i rest heq
    rw [heq] at h
    exact absurd rfl h
  · cases readMembers fuel (skipSpace cs) <;> rfl

/-- An item with a comma behind it is followed by further items. -/
theorem readItems_comma {fuel : Nat} {cs rest rest' : List Char} {item : Json}
    (hv : readValue fuel (skipSpace cs) = some (item, rest)) (hs : skipSpace rest = ',' :: rest') :
    readItems (fuel + 1) cs = (readItems fuel rest').map fun r => (item :: r.1, r.2) := by
  rw [readItems, hv]
  simp only [bind, Option.bind, hs]
  cases readItems fuel rest' <;> rfl

/-- An item with a closing bracket behind it is the last. -/
theorem readItems_close {fuel : Nat} {cs rest rest' : List Char} {item : Json}
    (hv : readValue fuel (skipSpace cs) = some (item, rest)) (hs : skipSpace rest = ']' :: rest') :
    readItems (fuel + 1) cs = some ([item], rest') := by
  rw [readItems, hv]
  simp only [bind, Option.bind, hs]
  rfl

/-- A member with a comma behind it is followed by further members. -/
theorem readMembers_comma {fuel : Nat} {cs quoted named gap rest rest' : List Char} {key : Option String} {value : Json}
    (hq : skipSpace cs = '"' :: quoted) (hk : readString quoted = some (key, named)) (hc : skipSpace named = ':' :: gap)
    (hv : readValue fuel (skipSpace gap) = some (value, rest)) (hs : skipSpace rest = ',' :: rest') :
    readMembers (fuel + 1) cs = (readMembers fuel rest').map fun r => ((key, value) :: r.1, r.2) := by
  rw [readMembers, hq]
  simp only [hk, bind, Option.bind, hc, hv, hs]
  cases readMembers fuel rest' <;> rfl

/-- A member with a closing brace behind it is the last. -/
theorem readMembers_close {fuel : Nat} {cs quoted named gap rest rest' : List Char} {key : Option String} {value : Json}
    (hq : skipSpace cs = '"' :: quoted) (hk : readString quoted = some (key, named)) (hc : skipSpace named = ':' :: gap)
    (hv : readValue fuel (skipSpace gap) = some (value, rest)) (hs : skipSpace rest = '\x7d' :: rest') :
    readMembers (fuel + 1) cs = some ([(key, value)], rest') := by
  rw [readMembers, hq]
  simp only [hk, bind, Option.bind, hc, hv, hs]
  rfl

/-- Items are spelled from a character on that does not close the array. -/
theorem head?_items {items : List Json} {cs : List Char} (h : SpellsItems items cs) (rest : List Char) :
    (skipSpace (cs ++ rest)).head? ≠ some ']' := by
  cases h with
  | last hb hv _ | cons hb hv _ _ =>
    obtain ⟨c, cs', rfl, hc, hne⟩ := exists_head hv
    simp only [List.append_assoc, List.cons_append, skipSpace_before hb hc, List.head?_cons]
    exact fun heq => hne (Option.some.inj heq)

/-- Members are spelled from a quote on. -/
theorem head?_members {members : List (Option String × Json)} {cs : List Char} (h : SpellsMembers members cs)
    (rest : List Char) : (skipSpace (cs ++ rest)).head? = some '"' := by
  cases h with
  | last hb hk _ _ _ _ | cons hb hk _ _ _ _ _ =>
    obtain ⟨ps, body, -, -, rfl⟩ := hk
    simp only [List.append_assoc, List.cons_append, skipSpace_before hb (show isSpace '"' = false from rfl), List.head?_cons]

/-- A value that begins with a digit or with a minus is a number. -/
theorem readValue_number {c : Char} (hc : c.isDigit ∨ c = '-') (fuel : Nat) (cs : List Char) :
    readValue (fuel + 1) (c :: cs) = (readNumber (c :: cs)).map fun r => (.number r.1, r.2) := by
  rw [readValue]
  · cases readNumber (c :: cs) <;> rfl
  all_goals
    intro rest heq
    cases heq
    rcases hc with hc | hc <;> cases hc

mutual
/-- A value that is spelled is read, with what stands behind it left over. Twice the length is fuel enough. -/
theorem readValue_of_spells {j : Json} {cs : List Char} : Spells j cs → ∀ fuel rest, 2 * cs.length ≤ fuel → Follows rest →
    readValue fuel (cs ++ rest) = some (j, rest)
  | .null, fuel + 1, rest, _, _ => rfl
  | .true, fuel + 1, rest, _, _ => rfl
  | .false, fuel + 1, rest, _, _ => rfl
  | .number hn, fuel + 1, rest, _, hr => by
    obtain ⟨c, cs', rfl, hc⟩ := exists_head_number hn
    have hread := readNumber_of_spells hn hr
    rw [List.cons_append] at hread ⊢
    rw [readValue_number hc, hread]
    rfl
  | .string hs, fuel + 1, rest, _, _ => by
    obtain ⟨cs', hcs, hread⟩ := readString_of_spells hs rest
    rw [hcs, readValue, hread]
    rfl
  | .emptyArray hws, fuel + 1, rest, _, _ => by
    rw [List.cons_append, List.append_assoc, readValue, List.singleton_append, skipSpace_before hws rfl]
    rfl
  | .array hi, fuel + 1, rest, hf, _ => by
    simp only [List.length_cons, List.length_append] at hf
    rw [List.cons_append, List.append_assoc, List.singleton_append, readValue_array (head?_items hi _),
      readItems_of_spells hi fuel rest (by omega)]
    rfl
  | .emptyObject hws, fuel + 1, rest, _, _ => by
    rw [List.cons_append, List.append_assoc, readValue, List.singleton_append, skipSpace_before hws rfl]
    rfl
  | .object hm, fuel + 1, rest, hf, _ => by
    simp only [List.length_cons, List.length_append] at hf
    have hq := head?_members hm ('\x7d' :: rest)
    rw [List.cons_append, List.append_assoc, List.singleton_append, readValue_object (by rw [hq]; decide),
      readMembers_of_spells hm fuel rest (by omega)]
    rfl
  | h, 0, rest, hf, _ => by
    obtain ⟨c, cs', rfl, -⟩ := exists_head h
    cases hf

/-- Items that are spelled are read up to the closing bracket. -/
theorem readItems_of_spells {items : List Json} {cs : List Char} : SpellsItems items cs → ∀ fuel rest,
    2 * cs.length + 1 ≤ fuel → readItems fuel (cs ++ ']' :: rest) = some (items, rest)
  | .last hb hv ha, fuel + 1, rest, hf => by
    simp only [List.length_append] at hf
    simp only [List.append_assoc]
    have hr := readValue_of_spells hv fuel _ (by omega) (follows_append ha (follows_cons (Or.inr (Or.inl rfl)) rest))
    rw [← skipSpace_spells hb hv] at hr
    exact readItems_close hr (skipSpace_before ha rfl rest)
  | @SpellsItems.cons item items before cs after others hb hv ha hi, fuel + 1, rest, hf => by
    simp only [List.length_append, List.length_cons] at hf
    simp only [List.append_assoc, List.cons_append]
    have hr := readValue_of_spells hv fuel _ (by omega) (follows_append ha (follows_cons (Or.inl rfl) (others ++ ']' :: rest)))
    rw [← skipSpace_spells hb hv] at hr
    rw [readItems_comma hr (skipSpace_before ha rfl _), readItems_of_spells hi fuel rest (by omega)]
    rfl

/-- Members that are spelled are read up to the closing brace. -/
theorem readMembers_of_spells {members : List (Option String × Json)} {cs : List Char} : SpellsMembers members cs →
    ∀ fuel rest, 2 * cs.length + 1 ≤ fuel → readMembers fuel (cs ++ '\x7d' :: rest) = some (members, rest)
  | @SpellsMembers.last key value before name behind gap cs after hb hk hn hg hv ha, fuel + 1, rest, hf => by
    simp only [List.length_append, List.length_cons] at hf
    simp only [List.append_assoc, List.cons_append]
    have hr := readValue_of_spells hv fuel _ (by omega) (follows_append ha (follows_cons (Or.inr (Or.inr rfl)) rest))
    rw [← skipSpace_spells hg hv] at hr
    obtain ⟨quoted, hquoted, hread⟩ :=
      readString_of_spells hk (behind ++ ':' :: (gap ++ (cs ++ (after ++ '\x7d' :: rest))))
    rw [hquoted]
    exact readMembers_close (skipSpace_before hb rfl _) hread (skipSpace_before hn rfl _) hr (skipSpace_before ha rfl rest)
  | @SpellsMembers.cons key value members before name behind gap cs after others hb hk hn hg hv ha hm, fuel + 1, rest, hf => by
    simp only [List.length_append, List.length_cons] at hf
    simp only [List.append_assoc, List.cons_append]
    have hr := readValue_of_spells hv fuel _ (by omega) (follows_append ha (follows_cons (Or.inl rfl) (others ++ '\x7d' :: rest)))
    rw [← skipSpace_spells hg hv] at hr
    obtain ⟨quoted, hquoted, hread⟩ :=
      readString_of_spells hk (behind ++ ':' :: (gap ++ (cs ++ (after ++ ',' :: (others ++ '\x7d' :: rest)))))
    rw [hquoted, readMembers_comma (skipSpace_before hb rfl _) hread (skipSpace_before hn rfl _) hr (skipSpace_before ha rfl _),
      readMembers_of_spells hm fuel rest (by omega)]
    rfl
end

/-- A text of a value is read as the value. -/
theorem ofChars?_of_spellsText {j : Json} {cs : List Char} (h : SpellsText j cs) : ofChars? cs = some j := by
  obtain ⟨before, mid, after, hb, hv, ha, rfl⟩ := h
  have hf : Follows after := by
    rw [← List.append_nil after]
    exact follows_append ha nofun
  have hr := readValue_of_spells hv (2 * (before ++ (mid ++ after)).length + 1) after
    (by simp only [List.length_append]; omega) hf
  have hs : skipSpace (after ++ []) = [] := skipSpace_append ha []
  rw [List.append_nil] at hs
  simp only [ofChars?, skipSpace_spells hb hv, hr, hs, bind, Option.bind]
  rfl

end GrammarAux

/-- The texts that are read are those of the grammar, and each is read as the value that it spells. -/
theorem ofText?_eq_some_iff {text : String} {j : Json} : ofText? text = some j ↔ SpellsText j text.toList :=
  ⟨GrammarAux.spellsText_of_ofChars?, GrammarAux.ofChars?_of_spellsText⟩

end RegexTree.Json

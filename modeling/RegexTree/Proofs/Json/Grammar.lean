import Mathlib.Data.Option.Basic
import RegexTree.Json.Reader

/-!
# The grammar of JSON

The standard grammar as a relation between a value and the characters that spell it, with white space at any place where the
grammar allows it. The reader takes a text for a value only if it is a text of this value (`spellsText_of_ofChars?`).
-/

namespace RegexTree.Json

/-- White space of the grammar alone, or nothing. -/
def Space (cs : List Char) : Prop := ∀ c ∈ cs, isSpace c

/-- Decimal digits, of which there is one at least. -/
def Digits (cs : List Char) : Prop := cs ≠ [] ∧ ∀ c ∈ cs, c.isDigit

/-- The characters between the quotes spell these pieces. -/
inductive SpellsPieces : List Piece → List Char → Prop where
  | nil : SpellsPieces [] []
  | char {c : Char} {ps : List Piece} {cs : List Char} :
      c ≠ '"' → c ≠ '\\' → 0x20 ≤ c.toNat → SpellsPieces ps cs → SpellsPieces (.char c :: ps) (c :: cs)
  | short {e c : Char} {ps : List Piece} {cs : List Char} :
      shortEscape? e = some c → SpellsPieces ps cs → SpellsPieces (.char c :: ps) ('\\' :: e :: cs)
  | unit {a b c d : Char} {n : Nat} {ps : List Piece} {cs : List Char} :
      hexUnit? a b c d = some n → SpellsPieces ps cs → SpellsPieces (.unit n :: ps) ('\\' :: 'u' :: a :: b :: c :: d :: cs)

/-- The characters are a string in quotes, which may denote no characters. -/
def SpellsString (text : Option String) (cs : List Char) : Prop :=
  ∃ ps body, SpellsPieces ps body ∧ text = (joinPieces? ps).map String.ofList ∧ cs = '"' :: body ++ ['"']

/-- The characters spell the digits behind the point, if there is a point. -/
def SpellsFraction : Option (List Char) → List Char → Prop
  | none, cs => cs = []
  | some digits, cs => Digits digits ∧ cs = '.' :: digits

/-- The characters spell an exponent, if there is one. -/
def SpellsExponent : Option (Bool × List Char) → List Char → Prop
  | none, cs => cs = []
  | some (negative, digits), cs =>
    Digits digits ∧ ∃ mark sign, (mark = 'e' ∨ mark = 'E') ∧
      (if negative then sign = ['-'] else sign = [] ∨ sign = ['+']) ∧ cs = mark :: (sign ++ digits)

/-- The characters spell a number. A zero is the only digit before the point that it begins. -/
def SpellsNumber (l : NumberLiteral) (cs : List Char) : Prop :=
  Digits l.whole ∧ (l.whole.head? ≠ some '0' ∨ l.whole.length = 1) ∧
    ∃ fraction exponent, SpellsFraction l.fraction fraction ∧ SpellsExponent l.exponent exponent ∧
      cs = (if l.negative then ['-'] else []) ++ (l.whole ++ (fraction ++ exponent))

mutual
/-- The characters spell a value, without white space around it. -/
inductive Spells : Json → List Char → Prop where
  | null : Spells .null ['n', 'u', 'l', 'l']
  | true : Spells (.flag true) ['t', 'r', 'u', 'e']
  | false : Spells (.flag false) ['f', 'a', 'l', 's', 'e']
  | number {l : NumberLiteral} {cs : List Char} : SpellsNumber l cs → Spells (.number l) cs
  | string {text : Option String} {cs : List Char} : SpellsString text cs → Spells (.string text) cs
  | emptyArray {ws : List Char} : Space ws → Spells (.array []) ('[' :: (ws ++ [']']))
  | array {items : List Json} {cs : List Char} : SpellsItems items cs → Spells (.array items) ('[' :: (cs ++ [']']))
  | emptyObject {ws : List Char} : Space ws → Spells (.object []) ('\x7b' :: (ws ++ ['\x7d']))
  | object {members : List (Option String × Json)} {cs : List Char} :
      SpellsMembers members cs → Spells (.object members) ('\x7b' :: (cs ++ ['\x7d']))

/-- The characters spell the items of an array, with commas between them and white space around each. -/
inductive SpellsItems : List Json → List Char → Prop where
  | last {item : Json} {before cs after : List Char} :
      Space before → Spells item cs → Space after → SpellsItems [item] (before ++ (cs ++ after))
  | cons {item : Json} {items : List Json} {before cs after rest : List Char} :
      Space before → Spells item cs → Space after → SpellsItems items rest →
        SpellsItems (item :: items) (before ++ (cs ++ (after ++ ',' :: rest)))

/-- The characters spell the members of an object, with commas between them and white space around each key and each value. -/
inductive SpellsMembers : List (Option String × Json) → List Char → Prop where
  | last {key : Option String} {value : Json} {before name behind gap cs after : List Char} :
      Space before → SpellsString key name → Space behind → Space gap → Spells value cs → Space after →
        SpellsMembers [(key, value)] (before ++ (name ++ (behind ++ ':' :: (gap ++ (cs ++ after)))))
  | cons {key : Option String} {value : Json} {members : List (Option String × Json)}
      {before name behind gap cs after rest : List Char} :
      Space before → SpellsString key name → Space behind → Space gap → Spells value cs → Space after →
        SpellsMembers members rest →
        SpellsMembers ((key, value) :: members) (before ++ (name ++ (behind ++ ':' :: (gap ++ (cs ++ (after ++ ',' :: rest))))))
end

/-- The characters are a text of a value, with white space around it. -/
def SpellsText (j : Json) (cs : List Char) : Prop :=
  ∃ before mid after, Space before ∧ Spells j mid ∧ Space after ∧ cs = before ++ (mid ++ after)

namespace GrammarAux

/-! ## What is read is spelled -/

/-- What is skipped is white space. -/
theorem space_skipSpace (cs : List Char) : ∃ ws, Space ws ∧ cs = ws ++ skipSpace cs :=
  ⟨cs.takeWhile isSpace, List.all_eq_true.1 List.all_takeWhile, List.takeWhile_append_dropWhile.symm⟩

/-- White space behind white space. -/
theorem space_append {ws ws' : List Char} (h : Space ws) (h' : Space ws') : Space (ws ++ ws') :=
  List.forall_mem_append.2 ⟨h, h'⟩

/-- What is guarded holds where the guard lets pass. -/
theorem of_guard {p : Prop} [Decidable p] {u : Unit} (h : (guard p : Option Unit) = some u) : p := by
  unfold guard at h
  split at h
  · assumption
  · cases h

/-- The pieces of a string are read where they are spelled. -/
theorem spells_of_readPieces {cs rest : List Char} {ps : List Piece} (h : readPieces cs = some (ps, rest)) :
    ∃ body, SpellsPieces ps body ∧ cs = body ++ '"' :: rest := by
  fun_induction readPieces cs generalizing ps with
  | case1 => cases h
  | case2 rest' =>
    cases h
    exact ⟨[], .nil, rfl⟩
  | case3 a b c d rest' ih =>
    simp only [bind, Option.bind_eq_some_iff] at h
    obtain ⟨n, hn, ⟨ps', rest''⟩, hr, h⟩ := h
    cases h
    obtain ⟨body, hb, heq⟩ := ih hr
    exact ⟨_, .unit hn hb, by rw [heq]; rfl⟩
  | case4 e rest' _ ih =>
    simp only [bind, Option.bind_eq_some_iff] at h
    obtain ⟨c, hc, ⟨ps', rest''⟩, hr, h⟩ := h
    cases h
    obtain ⟨body, hb, heq⟩ := ih hr
    exact ⟨_, .short hc hb, by rw [heq]; rfl⟩
  | case5 c rest' hq _ _ ih =>
    obtain ⟨u, hg, h⟩ := Option.bind_eq_some_iff.1 h
    obtain ⟨⟨ps', rest''⟩, hr, h⟩ := Option.bind_eq_some_iff.1 h
    cases h
    obtain ⟨hs, hc⟩ := of_guard hg
    obtain ⟨body, hb, heq⟩ := ih hr
    exact ⟨_, .char hq hs hc hb, by rw [heq]; rfl⟩

/-- A string is read where it is spelled, behind its opening quote. -/
theorem spells_of_readString {cs rest : List Char} {text : Option String} (h : readString cs = some (text, rest)) :
    ∃ quoted, SpellsString text quoted ∧ '"' :: cs = quoted ++ rest := by
  simp only [readString, bind, Option.bind_eq_some_iff] at h
  obtain ⟨⟨ps, rest'⟩, hr, h⟩ := h
  cases h
  obtain ⟨body, hb, rfl⟩ := spells_of_readPieces hr
  exact ⟨_, ⟨ps, body, hb, rfl, rfl⟩, by simp⟩

/-- The digits that are read. -/
theorem digits_of_readDigits {cs digits rest : List Char} (h : readDigits cs = some (digits, rest)) :
    Digits digits ∧ cs = digits ++ rest := by
  unfold readDigits at h
  simp only at h
  split at h
  · cases h
  · rename_i hne
    cases h
    exact ⟨⟨fun hd => hne (by rw [hd]; rfl), List.all_eq_true.1 List.all_takeWhile⟩, List.takeWhile_append_dropWhile.symm⟩

/-- The fraction that is read. -/
theorem spells_of_readFraction {cs rest : List Char} {fraction : Option (List Char)}
    (h : readFraction cs = some (fraction, rest)) : ∃ mid, SpellsFraction fraction mid ∧ cs = mid ++ rest := by
  unfold readFraction at h
  split at h
  · simp only [bind, Option.bind_eq_some_iff] at h
    obtain ⟨⟨digits, rest'⟩, hr, h⟩ := h
    cases h
    obtain ⟨hd, rfl⟩ := digits_of_readDigits hr
    exact ⟨_, ⟨hd, rfl⟩, rfl⟩
  · cases h
    exact ⟨[], rfl, rfl⟩

/-- The sign of an exponent that is read. -/
theorem sign_of_readSign (cs : List Char) :
    ∃ sign, (if (readSign cs).1 then sign = ['-'] else sign = [] ∨ sign = ['+']) ∧ cs = sign ++ (readSign cs).2 := by
  unfold readSign
  split
  · exact ⟨['-'], rfl, rfl⟩
  · exact ⟨['+'], Or.inr rfl, rfl⟩
  · exact ⟨[], Or.inl rfl, rfl⟩

/-- The minus of a number that is read. -/
theorem minus_of_readMinus (cs : List Char) : cs = (if (readMinus cs).1 then ['-'] else []) ++ (readMinus cs).2 := by
  unfold readMinus
  split <;> rfl

/-- The exponent that is read. -/
theorem spells_of_readExponent {cs rest : List Char} {exponent : Option (Bool × List Char)}
    (h : readExponent cs = some (exponent, rest)) : ∃ mid, SpellsExponent exponent mid ∧ cs = mid ++ rest := by
  unfold readExponent at h
  split at h
  · cases h
    exact ⟨[], rfl, rfl⟩
  · rename_i mark cs
    split at h
    · rename_i hm
      simp only [bind, Option.bind_eq_some_iff] at h
      obtain ⟨⟨digits, rest'⟩, hr, h⟩ := h
      cases h
      obtain ⟨hd, heq⟩ := digits_of_readDigits hr
      have hmark : mark = 'e' ∨ mark = 'E' := by simpa using hm
      obtain ⟨sign, hsign, hcs⟩ := sign_of_readSign cs
      refine ⟨_, ⟨hd, mark, sign, hmark, hsign, rfl⟩, ?_⟩
      rw [hcs, heq, List.cons_append, List.append_assoc]
    · cases h
      exact ⟨[], rfl, rfl⟩

/-- A number is read where it is spelled. -/
theorem spells_of_readNumber {cs rest : List Char} {l : NumberLiteral} (h : readNumber cs = some (l, rest)) :
    ∃ mid, SpellsNumber l mid ∧ cs = mid ++ rest := by
  simp only [readNumber, bind, Option.bind_eq_some_iff] at h
  obtain ⟨⟨whole, rest₁⟩, hw, ⟨fraction, rest₂⟩, hf, ⟨exponent, rest₃⟩, he, h⟩ := h
  cases h
  obtain ⟨⟨digits, rest'⟩, hd, hw⟩ := Option.bind_eq_some_iff.1 hw
  obtain ⟨u, hg, hw⟩ := Option.bind_eq_some_iff.1 hw
  cases hw
  obtain ⟨hdigits, hcs⟩ := digits_of_readDigits hd
  obtain ⟨fractionText, hfraction, rfl⟩ := spells_of_readFraction hf
  obtain ⟨exponentText, hexponent, rfl⟩ := spells_of_readExponent he
  refine ⟨_, ⟨hdigits, of_guard hg, fractionText, exponentText, hfraction, hexponent, rfl⟩, ?_⟩
  have hm := minus_of_readMinus cs
  rw [hcs] at hm
  refine hm.trans ?_
  simp only [List.append_assoc]

/-- White space before the first item is white space of the item. -/
theorem items_append {ws cs : List Char} {items : List Json} (hws : Space ws) (h : SpellsItems items cs) :
    SpellsItems items (ws ++ cs) := by
  cases h with
  | last hb hv ha =>
    rw [← List.append_assoc]
    exact .last (space_append hws hb) hv ha
  | cons hb hv ha hr =>
    rw [← List.append_assoc]
    exact .cons (space_append hws hb) hv ha hr

/-- White space before the first member is white space of the member. -/
theorem members_append {ws cs : List Char} {members : List (Option String × Json)} (hws : Space ws)
    (h : SpellsMembers members cs) : SpellsMembers members (ws ++ cs) := by
  cases h with
  | last hb hk hn hg hv ha =>
    rw [← List.append_assoc]
    exact .last (space_append hws hb) hk hn hg hv ha
  | cons hb hk hn hg hv ha hr =>
    rw [← List.append_assoc]
    exact .cons (space_append hws hb) hk hn hg hv ha hr

/-- A value that is read with so much fuel is spelled. -/
def ValuesSpelled (fuel : Nat) : Prop :=
  ∀ {cs j rest}, readValue fuel cs = some (j, rest) → ∃ mid, Spells j mid ∧ cs = mid ++ rest

/-- Items that are read with so much fuel are spelled up to the closing bracket. -/
def ItemsSpelled (fuel : Nat) : Prop :=
  ∀ {cs items rest}, readItems fuel cs = some (items, rest) → ∃ mid, SpellsItems items mid ∧ cs = mid ++ ']' :: rest

/-- Members that are read with so much fuel are spelled up to the closing brace. -/
def MembersSpelled (fuel : Nat) : Prop :=
  ∀ {cs members rest}, readMembers fuel cs = some (members, rest) →
    ∃ mid, SpellsMembers members mid ∧ cs = mid ++ '\x7d' :: rest

/-- A value is spelled where its items or its members are. -/
theorem valuesSpelled_succ {fuel : Nat} (ihItems : ItemsSpelled fuel) (ihMembers : MembersSpelled fuel) :
    ValuesSpelled (fuel + 1) := by
  intro cs j rest h
  unfold readValue at h
  split at h
  · cases h
    exact ⟨_, .null, rfl⟩
  · cases h
    exact ⟨_, .true, rfl⟩
  · cases h
    exact ⟨_, .false, rfl⟩
  · simp only [bind, Option.bind_eq_some_iff] at h
    obtain ⟨⟨text, rest'⟩, hr, h⟩ := h
    cases h
    obtain ⟨quoted, hq, heq⟩ := spells_of_readString hr
    exact ⟨quoted, .string hq, heq⟩
  · rename_i cs
    obtain ⟨ws, hws, hcs⟩ := space_skipSpace cs
    split at h
    · rename_i heq
      cases h
      exact ⟨_, .emptyArray hws, by rw [hcs, heq]; simp⟩
    · simp only [bind, Option.bind_eq_some_iff] at h
      obtain ⟨⟨items, rest'⟩, hr, h⟩ := h
      cases h
      obtain ⟨mid, hi, heq⟩ := ihItems hr
      exact ⟨_, .array (items_append hws hi), by rw [hcs, heq]; simp⟩
  · rename_i cs
    obtain ⟨ws, hws, hcs⟩ := space_skipSpace cs
    split at h
    · rename_i heq
      cases h
      exact ⟨_, .emptyObject hws, by rw [hcs, heq]; simp⟩
    · simp only [bind, Option.bind_eq_some_iff] at h
      obtain ⟨⟨members, rest'⟩, hr, h⟩ := h
      cases h
      obtain ⟨mid, hm, heq⟩ := ihMembers hr
      exact ⟨_, .object (members_append hws hm), by rw [hcs, heq]; simp⟩
  · simp only [bind, Option.bind_eq_some_iff] at h
    obtain ⟨⟨l, rest'⟩, hr, h⟩ := h
    cases h
    obtain ⟨mid, hn, heq⟩ := spells_of_readNumber hr
    exact ⟨mid, .number hn, heq⟩

/-- Items are spelled where the first value is and the items behind it are. -/
theorem itemsSpelled_succ {fuel : Nat} (ihValue : ValuesSpelled fuel) (ihItems : ItemsSpelled fuel) :
    ItemsSpelled (fuel + 1) := by
  intro cs items rest h
  simp only [readItems, bind, Option.bind_eq_some_iff] at h
  obtain ⟨⟨item, rest₁⟩, hr, h⟩ := h
  obtain ⟨before, hbefore, hcs⟩ := space_skipSpace cs
  obtain ⟨mid, hv, hmid⟩ := ihValue hr
  obtain ⟨after, hafter, hrest⟩ := space_skipSpace rest₁
  split at h
  · rename_i rest₂ heq
    simp only [Option.bind_eq_some_iff] at h
    obtain ⟨⟨items', rest₃⟩, hr', h⟩ := h
    cases h
    obtain ⟨body, hitems, hbody⟩ := ihItems hr'
    refine ⟨_, .cons hbefore hv hafter hitems, ?_⟩
    rw [hcs, hmid, hrest, heq, hbody]
    simp
  · rename_i rest₂ heq
    cases h
    refine ⟨_, .last hbefore hv hafter, ?_⟩
    rw [hcs, hmid, hrest, heq]
    simp
  · cases h

/-- Members are spelled where the first value is and the members behind it are. -/
theorem membersSpelled_succ {fuel : Nat} (ihValue : ValuesSpelled fuel) (ihMembers : MembersSpelled fuel) :
    MembersSpelled (fuel + 1) := by
  intro cs members rest h
  simp only [readMembers] at h
  obtain ⟨before, hbefore, hcs⟩ := space_skipSpace cs
  split at h
  · rename_i rest₀ heq₀
    simp only [bind, Option.bind_eq_some_iff] at h
    obtain ⟨⟨key, rest₁⟩, hk, h⟩ := h
    obtain ⟨name, hname, hquoted⟩ := spells_of_readString hk
    obtain ⟨behind, hbehind, hrest₁⟩ := space_skipSpace rest₁
    split at h
    · rename_i rest₂ heq₂
      simp only [Option.bind_eq_some_iff] at h
      obtain ⟨⟨value, rest₃⟩, hr, h⟩ := h
      obtain ⟨gap, hgap, hrest₂⟩ := space_skipSpace rest₂
      obtain ⟨mid, hv, hmid⟩ := ihValue hr
      obtain ⟨after, hafter, hrest₃⟩ := space_skipSpace rest₃
      split at h
      · rename_i rest₄ heq₄
        simp only [Option.bind_eq_some_iff] at h
        obtain ⟨⟨members', rest₅⟩, hr', h⟩ := h
        cases h
        obtain ⟨body, hmembers, hbody⟩ := ihMembers hr'
        refine ⟨_, .cons hbefore hname hbehind hgap hv hafter hmembers, ?_⟩
        rw [hcs, heq₀, hquoted, hrest₁, heq₂, hrest₂, hmid, hrest₃, heq₄, hbody]
        simp
      · rename_i rest₄ heq₄
        cases h
        refine ⟨_, .last hbefore hname hbehind hgap hv hafter, ?_⟩
        rw [hcs, heq₀, hquoted, hrest₁, heq₂, hrest₂, hmid, hrest₃, heq₄]
        simp
      · cases h
    · cases h
  · cases h

/-- What is read is spelled. -/
theorem spelled (fuel : Nat) : ValuesSpelled fuel ∧ ItemsSpelled fuel ∧ MembersSpelled fuel := by
  -- The three readers call each other with one unit of fuel less, so none can be treated before the others.
  induction fuel with
  | zero => exact ⟨nofun, nofun, nofun⟩
  | succ fuel ih =>
    obtain ⟨ihValue, ihItems, ihMembers⟩ := ih
    exact ⟨valuesSpelled_succ ihItems ihMembers, itemsSpelled_succ ihValue ihItems, membersSpelled_succ ihValue ihMembers⟩

/-- A text that is read is a text of the value. -/
theorem spellsText_of_ofChars? {cs : List Char} {j : Json} (h : ofChars? cs = some j) : SpellsText j cs := by
  obtain ⟨⟨j', rest⟩, hr, h⟩ := Option.bind_eq_some_iff.1 h
  obtain ⟨u, hg, h⟩ := Option.bind_eq_some_iff.1 h
  cases h
  obtain ⟨before, hbefore, hcs⟩ := space_skipSpace cs
  obtain ⟨mid, hv, hmid⟩ := (spelled _).1 hr
  obtain ⟨after, hafter, hrest⟩ := space_skipSpace rest
  rw [List.isEmpty_iff.1 (of_guard hg), List.append_nil] at hrest
  exact ⟨before, mid, after, hbefore, hv, hafter, by rw [hcs, hmid, hrest]⟩

end GrammarAux

end RegexTree.Json

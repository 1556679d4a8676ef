import RegexTree.Proofs.Written
import RegexTree.Proofs.Yaml.Scalar

/-!
# The tokens of a document

The tokens that a regular document is written for (`Document.tokens`) are the tokens that the lexer makes of its text
(`ofChars?_write`). The induction is on the document: a value behind a key, the items of a list and the fields of a record each
lead to the line in which the text around them goes on.
-/

namespace RegexTree

open Yaml

namespace Document

/-- The tokens of a scalar or of a collection without parts. -/
def leafTokens : Document → List Token
  | null => [.scalar "null" .plain]
  | flag value => [.scalar (toString value) .plain]
  | number value => [.scalar value.text .plain]
  | text value => [.scalar value (styleOf value.toList)]
  | list _ => [.flowSequenceStart, .flowSequenceEnd]
  | record _ => [.flowMappingStart, .flowMappingEnd]

mutual
/-- The tokens of a document that stands behind a key. A list has the column of the key, and no tokens for its beginning and its
end. -/
def tokens : Document → List Token
  | list (item :: items) => .blockEntry :: tokens item ++ itemTokens items
  | record ((key, value) :: fields) =>
    .blockMappingStart :: .key :: .scalar key .plain :: .value :: tokens value ++ fieldTokens fields ++ [.blockEnd]
  | leaf => leafTokens leaf

/-- The tokens of items. -/
def itemTokens : List Document → List Token
  | [] => []
  | item :: items => .blockEntry :: tokens item ++ itemTokens items

/-- The tokens of fields. -/
def fieldTokens : List (String × Document) → List Token
  | [] => []
  | (key, value) :: fields => .key :: .scalar key .plain :: .value :: tokens value ++ fieldTokens fields
end

/-- A list has the tokens of its items. -/
theorem tokens_list {items : List Document} (h : items ≠ []) : tokens (list items) = itemTokens items := by
  cases items with
  | nil => exact absurd rfl h
  | cons item items => rfl

/-- A record has the tokens of its fields and those of its beginning and its end. -/
theorem tokens_record {fields : List (String × Document)} (h : fields ≠ []) :
    tokens (record fields) = .blockMappingStart :: fieldTokens fields ++ [.blockEnd] := by
  cases fields with
  | nil => exact absurd rfl h
  | cons f fields => rfl

end Document

namespace Yaml

open Document

/-! ## Keys and leaves -/

/-- The names of fields are words that are written plain. -/
theorem fieldNames_spec : ∀ key ∈ fieldNames, styleOf key.toList = .plain ∧ key.toList ≠ [] ∧ key.toList.length ≤ 1024 ∧
    ∀ c ∈ key.toList, c.isAlpha = true := by
  simp only [← List.all_eq_true]
  decide

/-- The name of a field is written as it is. -/
theorem scalarChars_key {key : String} (h : key ∈ fieldNames) (n : Nat) : scalarChars n key.toList = key.toList := by
  simp only [scalarChars, (fieldNames_spec key h).1]

/-- A word of letters and digits is plain. -/
theorem plainFrom_of_isAlphanum {cs : List Char} (h : ∀ c ∈ cs, c.isAlphanum = true) (previous : Char) :
    PlainFrom previous cs where
  printable c hc := isPrintable_of_isGraphic (isGraphic_of_isAlphanum (h c hc))
  notBreak c hc := notBreak_of_notGap (notGap_of_isGraphic (isGraphic_of_isAlphanum (h c hc)))
  noIndicator := by
    induction cs generalizing previous with
    | nil => rfl
    | cons c cs ih =>
      rw [List.forall_mem_cons] at h
      have h1 : c ≠ ':' := by
        rintro rfl
        exact absurd h.1 (by decide)
      have h2 : c ≠ '#' := by
        rintro rfl
        exact absurd h.1 (by decide)
      simp [hasInnerIndicator, h1, h2, ih h.2]
  last_ne hl := absurd (h ' ' (List.mem_of_getLast? hl)) (by decide)

/-- What is written for null is a word. -/
theorem isAlphanum_null : ∀ c ∈ ['n', 'u', 'l', 'l'], c.isAlphanum = true := List.all_eq_true.1 (by decide)

/-- What is written for a flag is a word. -/
theorem isAlphanum_toString (value : Bool) : ∀ c ∈ (toString value).toList, c.isAlphanum = true :=
  List.all_eq_true.1 (by cases value <;> decide)

/-- Digits are a word. -/
theorem isAlphanum_toDigits (n : Nat) : ∀ c ∈ Nat.toDigits 10 n, c.isAlphanum = true := by
  intro c hc
  simp [Char.isAlphanum, isDigit_toDigits n c hc]

/-! ## Lines -/

/-- A text goes on in a line further in too. -/
theorem Resumes.mono {n m : Nat} {rest : List Char} (h : Resumes n rest) (hn : n ≤ m) : Resumes m rest :=
  ⟨Nat.le_trans h.1 hn, h.2⟩

/-- A text goes on in a line that begins at its column. -/
theorem resumes_spaces {n : Nat} {cs : List Char} (h : beginsLine (first cs) = true) : Resumes n (spaces n ++ cs) := by
  have hs : first cs ≠ ' ' := ne_of_beginsLine h (by decide)
  exact ⟨Nat.le_of_eq (indentation_spaces hs n), Or.inr (by rwa [content_spaces hs])⟩

/-- The name of a field begins a line. -/
theorem beginsLine_key {key : String} (h : key ∈ fieldNames) (cs : List Char) :
    beginsLine (first (key.toList ++ cs)) = true := by
  obtain ⟨-, hne, -, ha⟩ := fieldNames_spec key h
  obtain ⟨c, ks, hc⟩ := List.exists_cons_of_ne_nil hne
  have hl : c.isAlpha = true := ha c (by simp [hc])
  rw [hc]
  simp [first, beginsLine, hl]

/-- The fields of a record are lines at one column. -/
theorem writeFields_cons {key : String} (h : key ∈ fieldNames) (n : Nat) (value : Document) (fields : List (String × Document)) :
    writeFields n ((key, value) :: fields) = spaces n ++ (key.toList ++ ':' :: (writeValue n value ++ writeFields n fields)) := by
  simp [writeFields, scalarChars_key h]

/-- The items of a list are lines at one column. -/
theorem writeItems_cons (n : Nat) (item : Document) (items : List Document) :
    writeItems n (item :: items) = spaces n ++ ('-' :: ' ' :: (write (n + 2) item ++ writeItems n items)) := by
  simp [writeItems]

/-- A record is written from its first key on. -/
theorem write_record {key : String} (h : key ∈ fieldNames) (n : Nat) (value : Document) (fields : List (String × Document)) :
    write n (record ((key, value) :: fields)) = key.toList ++ ':' :: (writeValue n value ++ writeFields n fields) := by
  simp [write, scalarChars_key h]

/-- The items of a list behind a key stand in lines of their own, at the column of the key. -/
theorem writeValue_list {items : List Document} (h : items ≠ []) (n : Nat) :
    writeValue n (list items) = '\n' :: writeItems n items := by
  cases items with
  | nil => exact absurd rfl h
  | cons item items => simp [writeValue, writeItems]

/-- The fields of a record behind a key stand in lines of their own, further in. -/
theorem writeValue_record {fields : List (String × Document)} (h : fields ≠ []) (n : Nat) :
    writeValue n (record fields) = '\n' :: writeFields (n + 2) fields := by
  cases fields with
  | nil => exact absurd rfl h
  | cons f fields => simp [writeValue, writeFields]

/-- Behind the colon of a field stands a space or a line break. -/
theorem writeValue_eq_cons (n : Nat) (d : Document) : ∃ c cs, writeValue n d = c :: cs ∧ (c = ' ' ∨ c = '\n') := by
  cases d with
  | list items =>
    cases items with
    | nil => exact ⟨' ', _, rfl, Or.inl rfl⟩
    | cons item items => exact ⟨'\n', _, writeValue_list (List.cons_ne_nil _ _) n, Or.inr rfl⟩
  | record fields =>
    cases fields with
    | nil => exact ⟨' ', _, rfl, Or.inl rfl⟩
    | cons f fields => exact ⟨'\n', _, writeValue_record (List.cons_ne_nil _ _) n, Or.inr rfl⟩
  | _ => exact ⟨' ', _, rfl, Or.inl rfl⟩

/-- Behind fields the text goes on as before them, if it does not go on with a field. -/
theorem resumes_writeFields {n : Nat} {fields : List (String × Document)} (h : RegularFields fields) {rest : List Char}
    (hr : Resumes n rest) : Resumes n (writeFields n fields ++ rest) := by
  cases fields with
  | nil => exact hr
  | cons f fields =>
    rw [writeFields_cons h.1.1, List.append_assoc, List.append_assoc]
    exact resumes_spaces (beginsLine_key h.1.1 _)

/-- Behind items the text goes on as before them, if it does not go on with an item. -/
theorem resumes_writeItems {n : Nat} (items : List Document) {rest : List Char} (hr : Resumes n rest) :
    Resumes n (writeItems n items ++ rest) := by
  cases items with
  | nil => exact hr
  | cons item items =>
    rw [writeItems_cons, List.append_assoc]
    exact resumes_spaces (by rfl)

/-! ## Leaves -/

namespace Lexer

variable {done : List Token} {outer : List Int} {n : Nat} {rest : List Char} {p : Position}

/-- A word with its line is reached behind a key. -/
theorem Reaches.word {cs : List Char} (h : ∀ c ∈ cs, c.isAlphanum = true) (hne : cs ≠ []) (hr : Resumes n rest)
    (hp : n < p.column) :
    ReachesLine (upTo done n outer false) (glyphs p (' ' :: (endLine cs ++ rest)))
      (upTo (done ++ [.scalar (String.ofList cs) .plain]) n outer true) rest := by
  obtain ⟨c, cs, rfl⟩ := List.exists_cons_of_ne_nil hne
  have hp' : n < (p.after ' ').column := Nat.lt_succ_of_lt hp
  have hplain := plainFrom_of_isAlphanum h ' '
  have hb := beginsPlain_of_isAlphanum (h c (by simp)) (first (cs ++ ['\n']))
  have ht := hb.beginsToken (hplain.printable c (by simp))
  rw [endLine_of_notBreak fun d hd => hplain.notBreak d (List.mem_of_getLast? hd), List.append_assoc]
  exact (Reaches.spaces (show beginsToken (first (c :: cs ++ (['\n'] ++ rest))) = true from ht) 1 p).trans_line
    (Reaches.plain hplain hb hr hp')

/-- A collection without parts with its line is reached behind a key. -/
theorem Reaches.brackets {b e : Char} {start stop : Token}
    (h : (b = '[' ∧ e = ']' ∧ start = .flowSequenceStart ∧ stop = .flowSequenceEnd) ∨
      (b = '\x7b' ∧ e = '\x7d' ∧ start = .flowMappingStart ∧ stop = .flowMappingEnd))
    (hr : Resumes n rest) (hp : n < p.column) :
    ReachesLine (upTo done n outer false) (glyphs p (' ' :: (endLine [b, e] ++ rest)))
      (upTo (done ++ [start, stop]) n outer true) rest := by
  have hs : beginsToken b = true ∧ isBreak e = false := by
    rcases h with ⟨rfl, rfl, -⟩ | ⟨rfl, rfl, -⟩ <;> decide
  have hi : (n : Int) ≤ (p.after ' ').column := by
    have := Nat.lt_succ_of_lt hp
    exact_mod_cast Nat.le_of_lt this
  rw [endLine_of_notBreak (by simpa using hs.2)]
  exact ((Reaches.spaces (show beginsToken (first ([b, e] ++ ['\n'] ++ rest)) = true from hs.1) 1 p).trans
    (Reaches.flow h hi ('\n' :: rest))).trans_line (Reaches.line hr _)

/-- A leaf with its line is reached behind a key. -/
theorem Reaches.leaf {d : Document} (h : d.Regular) (hr : Resumes n rest) (hp : n < p.column) :
    ReachesLine (upTo done n outer false) (glyphs p (' ' :: (writeLeaf (n + 2) d ++ rest)))
      (upTo (done ++ d.leafTokens) n outer true) rest := by
  cases d with
  | null => exact Reaches.word isAlphanum_null (by decide) hr hp
  | flag value =>
    cases value with
    | true => exact Reaches.word (isAlphanum_toString true) (by decide) hr hp
    | false => exact Reaches.word (isAlphanum_toString false) (by decide) hr hp
  | number value =>
    obtain ⟨m, rfl⟩ := h
    have hw : (Number.Numeral.integer m).text = String.ofList (Nat.toDigits 10 m) := by
      rw [← Number.Numeral.toList_text, String.ofList_toList]
    simp only [writeLeaf, leafTokens, hw, String.toList_ofList]
    exact Reaches.word (isAlphanum_toDigits m) Nat.toDigits_ne_nil hr hp
  | text value =>
    have ht : ReachesLine (upTo done n outer false) _ _ rest := Reaches.text value.toList hr hp
    rwa [String.ofList_toList] at ht
  | list items => exact Reaches.brackets (Or.inl ⟨rfl, rfl, rfl, rfl⟩) hr hp
  | record fields => exact Reaches.brackets (Or.inr ⟨rfl, rfl, rfl, rfl⟩) hr hp

/-! ## Documents -/

/-- The text of a document behind a key leads to its tokens and to the next line. -/
def LexesValue (d : Document) : Prop :=
  ∀ ⦃done : List Token⦄ ⦃n : Nat⦄ ⦃outer : List Int⦄ ⦃rest : List Char⦄ ⦃p : Position⦄, Resumes n rest → n < p.column →
    ReachesLine (upTo done n outer false) (glyphs p (writeValue n d ++ rest)) (upTo (done ++ d.tokens) n outer true) rest

/-- The lines of items, in a list that has the column of the mapping around it, lead to their tokens and to the next line. -/
def LexesItems (items : List Document) : Prop :=
  ∀ ⦃done : List Token⦄ ⦃n : Nat⦄ ⦃outer : List Int⦄ ⦃rest : List Char⦄ ⦃p : Position⦄, Resumes n rest →
    p.column = indentation (writeItems n items ++ rest) →
    ReachesLine (upTo done n outer true) (glyphs p (content (writeItems n items ++ rest)))
      (upTo (done ++ itemTokens items) n outer true) rest

/-- The lines of fields, in a mapping that is open, lead to their tokens and to the next line. -/
def LexesFields (fields : List (String × Document)) : Prop :=
  ∀ ⦃done : List Token⦄ ⦃n : Nat⦄ ⦃outer : List Int⦄ ⦃rest : List Char⦄ ⦃p : Position⦄, Resumes n rest →
    p.column = indentation (writeFields n fields ++ rest) →
    ReachesLine (upTo done n outer true) (glyphs p (content (writeFields n fields ++ rest)))
      (upTo (done ++ fieldTokens fields) n outer true) rest

/-- Behind the colon of a field stands a gap. -/
theorem isGap_writeValue (n : Nat) (d : Document) (rest : List Char) : isGap (first (writeValue n d ++ rest)) = true := by
  obtain ⟨c, cs, hc, hg⟩ := writeValue_eq_cons n d
  rw [hc]
  rcases hg with rfl | rfl <;> rfl

/-- A field is reached where its mapping is open, and where the mapping begins with it. -/
theorem Reaches.field {key : String} (hk : key ∈ fieldNames) {value : Document} (hv : LexesValue value) {i : Int}
    {start : List Token} {outer' : List Int}
    (h : (i = n ∧ start = [] ∧ outer' = outer) ∨ (i < n ∧ start = [.blockMappingStart] ∧ outer' = i :: outer))
    (hr : Resumes n rest) (hp : p.column = n) :
    ReachesLine (upTo done i outer true) (glyphs p (key.toList ++ ':' :: (writeValue n value ++ rest)))
      (upTo (done ++ (start ++ .key :: .scalar key .plain :: .value :: value.tokens)) n outer' true) rest := by
  obtain ⟨-, hne, hl, ha⟩ := fieldNames_spec key hk
  have hb : ∀ c ∈ key.toList, isBreak c = false := fun c hc =>
    notBreak_of_notGap (notGap_of_beginsLine (by simp [beginsLine, ha c hc]))
  have hc : n < ((p.afterAll key.toList).after ':').column := by
    have he : ((p.afterAll key.toList).after ':').column = p.column + key.toList.length + 1 := by
      rw [Position.afterAll_of_notBreak p hb]
      rfl
    omega
  have hkey : i ≤ p.column → Reaches (upTo done i outer true) _ _ _ := Reaches.key ha hne hl (isGap_writeValue n value rest) p
  rw [String.ofList_toList] at hkey
  rcases h with ⟨rfl, rfl, rfl⟩ | ⟨hi, rfl, rfl⟩
  · have hreach := hkey (by omega)
    rw [if_pos (by omega)] at hreach
    have hvalue := hreach.trans_line (hv hr hc)
    rwa [List.append_assoc] at hvalue
  · have hreach := hkey (by omega)
    rw [if_neg (by omega), hp] at hreach
    have hvalue := hreach.trans_line (hv hr hc)
    rwa [List.append_assoc] at hvalue

/-- No lines are reached at once. -/
theorem lexesFields_nil : LexesFields [] := by
  intro done n outer rest p hr hp
  rw [fieldTokens, List.append_nil]
  exact ⟨p, hp, .refl _ _⟩

/-- A field and the fields behind it are reached. -/
theorem lexesFields_cons {key : String} (hk : key ∈ fieldNames) {value : Document} {fields : List (String × Document)}
    (hf : RegularFields fields) (hv : LexesValue value) (hs : LexesFields fields) : LexesFields ((key, value) :: fields) := by
  intro done n outer rest p hr hp
  have hb := beginsLine_key hk (':' :: (writeValue n value ++ (writeFields n fields ++ rest)))
  have hspace := ne_of_beginsLine (d := ' ') hb (by decide)
  rw [writeFields_cons hk, List.append_assoc, List.append_assoc, List.cons_append, List.append_assoc] at hp ⊢
  rw [indentation_spaces hspace] at hp
  rw [content_spaces hspace]
  obtain ⟨q, hq, hreach⟩ : ReachesLine (upTo done n outer true) _ _ _ :=
    Reaches.field hk hv (Or.inl ⟨rfl, rfl, rfl⟩) (resumes_writeFields hf hr) hp
  have hrest := hreach.trans_line (hs hr hq)
  rwa [List.append_assoc] at hrest

/-- A record is reached from its first key on. Its mapping is still open. -/
theorem Reaches.record {key : String} (hk : key ∈ fieldNames) {value : Document} {fields : List (String × Document)}
    (hf : RegularFields fields) (hv : LexesValue value) (hs : LexesFields fields) {i : Int} (hi : i < n) (hr : Resumes n rest)
    (hp : p.column = n) :
    ReachesLine (upTo done i outer true) (glyphs p (write n (.record ((key, value) :: fields)) ++ rest))
      (upTo (done ++ .blockMappingStart :: fieldTokens ((key, value) :: fields)) n (i :: outer) true) rest := by
  obtain ⟨q, hq, hreach⟩ : ReachesLine (upTo done i outer true) _ _ _ :=
    Reaches.field hk hv (Or.inr ⟨hi, rfl, rfl⟩) (resumes_writeFields hf hr) hp
  have hrest := hreach.trans_line (hs hr hq)
  rw [write_record hk, List.append_assoc, List.cons_append, List.append_assoc]
  rwa [List.append_assoc] at hrest

/-- A record is reached with the end of its mapping, where the text goes on further out. -/
theorem Reaches.closedRecord {key : String} (hk : key ∈ fieldNames) {value : Document} {fields : List (String × Document)}
    (hf : RegularFields fields) (hv : LexesValue value) (hs : LexesFields fields) {m : Nat} (hm : m < n) {i : Int} (hi : i < n)
    (hr : Resumes m rest) (hp : p.column = n) :
    ReachesLine (upTo done i outer true) (glyphs p (write n (.record ((key, value) :: fields)) ++ rest))
      (upTo (done ++ (Document.record ((key, value) :: fields)).tokens) i outer true) rest := by
  obtain ⟨q, hq, hreach⟩ : ReachesLine (upTo done i outer true) _ _ rest :=
    Reaches.record hk hf hv hs hi (hr.mono (Nat.le_of_lt hm)) hp
  have hout : (q.column : Int) < n := by
    have := hr.1
    omega
  refine ⟨q, hq, ?_⟩
  have hend := hreach.trans (Reaches.blockEnd (beginsToken_of_resumes hr) hout)
  rwa [List.append_assoc] at hend

/-- Without items nothing is reached. -/
theorem lexesItems_nil : LexesItems [] := by
  intro done n outer rest p hr hp
  rw [itemTokens, List.append_nil]
  exact ⟨p, hp, .refl _ _⟩

/-- An item, which is a record, and the items behind it are reached. -/
theorem lexesItems_cons {key : String} (hk : key ∈ fieldNames) {value : Document} {fields : List (String × Document)}
    (hf : RegularFields fields) (hv : LexesValue value) (hs : LexesFields fields) {items : List Document}
    (hi : LexesItems items) : LexesItems (.record ((key, value) :: fields) :: items) := by
  intro done n outer rest p hr hp
  let item := Document.record ((key, value) :: fields)
  have hw : writeItems n (item :: items) ++ rest =
      spaces n ++ ('-' :: ' ' :: (write (n + 2) item ++ (writeItems n items ++ rest))) := by
    rw [writeItems_cons]
    simp
  have hb : beginsLine (first (write (n + 2) item ++ (writeItems n items ++ rest))) = true := by
    rw [write_record hk, List.append_assoc]
    exact beginsLine_key hk _
  have hdash : first ('-' :: ' ' :: (write (n + 2) item ++ (writeItems n items ++ rest))) ≠ ' ' := (by decide : '-' ≠ ' ')
  rw [hw, indentation_spaces hdash] at hp
  rw [hw, content_spaces hdash]
  have hreach : Reaches (upTo done n outer true) (glyphs p ('-' :: ' ' :: (write (n + 2) item ++ (writeItems n items ++ rest))))
      (upTo (done ++ [.blockEntry]) n outer true)
      (glyphs ((p.after '-').after ' ') (write (n + 2) item ++ (writeItems n items ++ rest))) :=
    Reaches.dash (by rw [hp]) (beginsToken_of_beginsLine hb)
  have hc : ((p.after '-').after ' ').column = n + 2 := congrArg (· + 2) hp
  obtain ⟨q, hq, hitem⟩ := hreach.trans_line
    (Reaches.closedRecord hk hf hv hs (Nat.lt_add_of_pos_right (by decide)) (by omega) (resumes_writeItems items hr) hc)
  have hrest := hitem.trans_line (hi hr hq)
  rwa [List.append_assoc, List.append_assoc] at hrest

/-- A list behind a key is reached when its items are. -/
theorem lexesValue_list {items : List Document} (hne : items ≠ []) (h : LexesItems items) : LexesValue (list items) := by
  intro done n outer rest p hr hp
  rw [writeValue_list hne, tokens_list hne]
  obtain ⟨q, hq, hline⟩ : ReachesLine (upTo done n outer false) _ _ _ := Reaches.line (resumes_writeItems items hr) p
  exact hline.trans_line (h hr hq)

/-- A record behind a key is reached when its fields are. -/
theorem lexesValue_record {key : String} (hk : key ∈ fieldNames) {value : Document} {fields : List (String × Document)}
    (hf : RegularFields fields) (hv : LexesValue value) (hs : LexesFields fields) :
    LexesValue (.record ((key, value) :: fields)) := by
  intro done n outer rest p hr hp
  have hb := beginsLine_key hk (':' :: (writeValue (n + 2) value ++ writeFields (n + 2) fields) ++ rest)
  have hw : writeFields (n + 2) ((key, value) :: fields) ++ rest =
      spaces (n + 2) ++ (write (n + 2) (.record ((key, value) :: fields)) ++ rest) := by
    rw [writeFields_cons hk, write_record hk, List.append_assoc]
  rw [← List.append_assoc, ← write_record hk] at hb
  have hspace := ne_of_beginsLine (d := ' ') hb (by decide)
  obtain ⟨q, hq, hline⟩ : ReachesLine (upTo done n outer false) _ _ _ := Reaches.line (resumes_spaces hb) p
  rw [indentation_spaces hspace] at hq
  rw [content_spaces hspace, ← hw] at hline
  rw [writeValue_record (List.cons_ne_nil _ _)]
  exact hline.trans_line (Reaches.closedRecord hk hf hv hs (Nat.lt_add_of_pos_right (by decide)) (by omega) hr hq)

mutual
/-- Every regular document is lexed behind a key. -/
theorem lexesValue : (d : Document) → d.Regular → LexesValue d
  | .null, h => fun _ _ _ _ _ hr hp => Reaches.leaf h hr hp
  | .flag _, h => fun _ _ _ _ _ hr hp => Reaches.leaf h hr hp
  | .number _, h => fun _ _ _ _ _ hr hp => Reaches.leaf h hr hp
  | .text _, h => fun _ _ _ _ _ hr hp => Reaches.leaf h hr hp
  | .list [], h => fun _ _ _ _ _ hr hp => Reaches.leaf h hr hp
  | .list (item :: items), h => lexesValue_list (List.cons_ne_nil _ _) (lexesItems (item :: items) h)
  | .record [], h => fun _ _ _ _ _ hr hp => Reaches.leaf h hr hp
  | .record ((_, value) :: fields), h => lexesValue_record h.1.1 h.2 (lexesValue value h.1.2) (lexesFields fields h.2)

/-- All items that are regular records with fields are lexed. -/
theorem lexesItems : (items : List Document) → RegularItems items → LexesItems items
  | [], _ => lexesItems_nil
  | .record ((_, value) :: fields) :: items, h =>
    lexesItems_cons h.1.1.1.1 h.1.1.2 (lexesValue value h.1.1.1.2) (lexesFields fields h.1.1.2) (lexesItems items h.2)
  | .record [] :: _, h => absurd rfl h.1.2

/-- All regular fields are lexed. -/
theorem lexesFields : (fields : List (String × Document)) → RegularFields fields → LexesFields fields
  | [], _ => lexesFields_nil
  | (_, value) :: fields, h => lexesFields_cons h.1.1 h.2 (lexesValue value h.1.2) (lexesFields fields h.2)
end

end Lexer

/-! ## Texts of documents -/

/-- A leaf is printable. -/
theorem printable_writeLeaf (n : Nat) {d : Document} (h : d.Regular) : Printable (writeLeaf (n + 2) d) := by
  cases d with
  | null => exact printable_endLine (by simp [Printable, isPrintable])
  | flag value =>
    exact printable_endLine (plainFrom_of_isAlphanum (isAlphanum_toString value) ' ').printable
  | number value =>
    obtain ⟨m, rfl⟩ := h
    simp only [writeLeaf, Number.Numeral.toList_text]
    exact printable_endLine (plainFrom_of_isAlphanum (isAlphanum_toDigits m) ' ').printable
  | text value => exact printable_endLine (printable_scalarChars n value.toList)
  | list items => exact printable_endLine (by simp [Printable, isPrintable])
  | record fields => exact printable_endLine (by simp [Printable, isPrintable])

/-- The name of a field is printable. -/
theorem printable_key {key : String} (h : key ∈ fieldNames) : Printable key.toList := fun c hc =>
  isPrintable_of_isGraphic (isGraphic_of_isAlphanum (by simp [Char.isAlphanum, (fieldNames_spec key h).2.2.2 c hc]))

mutual
/-- A regular document behind a key is printable. -/
theorem printable_writeValue (n : Nat) : (d : Document) → d.Regular → Printable (writeValue n d)
  | .null, h | .flag _, h | .number _, h | .text _, h | .list [], h | .record [], h =>
    printable_cons (by decide) (printable_writeLeaf n h)
  | .list (item :: items), h => by
    rw [writeValue_list (List.cons_ne_nil _ _)]
    exact printable_cons (by decide) (printable_writeItems n (item :: items) h)
  | .record (f :: fields), h => by
    rw [writeValue_record (List.cons_ne_nil _ _)]
    exact printable_cons (by decide) (printable_writeFields (n + 2) (f :: fields) h)

/-- Items that are regular records with fields are printable. -/
theorem printable_writeItems (n : Nat) : (items : List Document) → RegularItems items → Printable (writeItems n items)
  | [], _ => nofun
  | .record ((_, value) :: fields) :: items, h => by
    rw [writeItems_cons, write_record h.1.1.1.1]
    exact printable_append (printable_spaces n) (printable_cons (by decide) (printable_cons (by decide)
      (printable_append (printable_append (printable_key h.1.1.1.1) (printable_cons (by decide)
        (printable_append (printable_writeValue (n + 2) value h.1.1.1.2) (printable_writeFields (n + 2) fields h.1.1.2))))
        (printable_writeItems n items h.2))))
  | .record [] :: _, h => absurd rfl h.1.2

/-- Regular fields are printable. -/
theorem printable_writeFields (n : Nat) : (fields : List (String × Document)) → RegularFields fields →
    Printable (writeFields n fields)
  | [], _ => nofun
  | (_, value) :: fields, h => by
    rw [writeFields_cons h.1.1]
    exact printable_append (printable_spaces n) (printable_append (printable_key h.1.1) (printable_cons (by decide)
      (printable_append (printable_writeValue n value h.1.2) (printable_writeFields n fields h.2))))
end

/-- The tokens of a record with fields are the tokens of its text. -/
theorem ofChars?_write {d : Document} (h : d.Regular) (hf : d.HasFields) :
    Token.ofChars? (write 0 d) = some (d.tokens ++ [.streamEnd]) := by
  obtain ⟨key, value, fields, rfl⟩ : ∃ key value fields, d = .record ((key, value) :: fields) := by
    cases d with
    | record fields =>
      cases fields with
      | nil => exact absurd rfl hf
      | cons f fields => exact ⟨f.1, f.2, fields, rfl⟩
    | _ => exact hf.elim
  have hw : writeFields 0 ((key, value) :: fields) = write 0 (.record ((key, value) :: fields)) := by
    rw [writeFields_cons h.1.1, write_record h.1.1]
    rfl
  have hprint := printable_writeFields 0 ((key, value) :: fields) h
  rw [hw] at hprint
  obtain ⟨q, hq, n, hn, hrun⟩ : Lexer.ReachesLine (Lexer.upTo [] (-1) [] true)
      (glyphs {} (write 0 (.record ((key, value) :: fields)) ++ []))
      (Lexer.upTo ([] ++ .blockMappingStart :: fieldTokens ((key, value) :: fields)) (0 : Nat) [-1] true) [] :=
    Lexer.Reaches.record h.1.1 h.2 (Lexer.lexesValue value h.1.2) (Lexer.lexesFields fields h.2) (by decide)
      ⟨Nat.le_refl 0, Or.inl rfl⟩ rfl
  rw [List.append_nil] at hn hrun
  have hlength : (glyphs q (content [])).length = 1 := rfl
  rw [Token.ofChars?, ofChars?_printable hprint]
  generalize glyphs {} (write 0 (.record ((key, value) :: fields))) = gs at hn hrun
  have hfuel : gs.length + 1 = gs.length - n + 1 + n := by omega
  have hstart : ({} : Lexer) = Lexer.upTo [] (-1) [] true := rfl
  rw [hstart, Option.bind_eq_bind, Option.bind_some, hfuel, hrun]
  exact (Lexer.run_end hq).trans (by simp [tokens, fieldTokens])

end Yaml

end RegexTree

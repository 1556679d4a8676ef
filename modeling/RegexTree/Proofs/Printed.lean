import RegexTree.CommandLine.Outcome
import RegexTree.Proofs.Convert

/-!
# Converted texts as they are printed

The command line prints a converted text without the blanks behind it and with one line break. In JSON nothing is lost by that.
In YAML the last line may belong to a text (`Pattern.lastText`), and the text keeps its end if it is written between quotes, or
ends in a character other than a blank, with a line break behind it or not (`KeepsEnd`): then what is printed is what was
converted, and else it is not (`printed_yaml_iff`). A value that ends in two line breaks loses one.
-/

namespace RegexTree

open Document

namespace Document

mutual
/-- The text that is written last, if the document ends in a text. -/
def lastText : Document → Option String
  | text value => some value
  | list items => lastTextOfItems items
  | record fields => lastTextOfFields fields
  | _ => none

/-- The text that is written last of items. -/
def lastTextOfItems : List Document → Option String
  | [] => none
  | [item] => lastText item
  | _ :: items => lastTextOfItems items

/-- The text that is written last of fields. -/
def lastTextOfFields : List (String × Document) → Option String
  | [] => none
  | [(_, value)] => lastText value
  | _ :: fields => lastTextOfFields fields
end

/-- The text that is written last of items is one of the items behind the first, if there are any. -/
theorem lastTextOfItems_cons (item : Document) {items : List Document} (h : items ≠ []) :
    lastTextOfItems (item :: items) = lastTextOfItems items := by
  cases items with
  | nil => exact absurd rfl h
  | cons item' items => rfl

/-- The text that is written last of fields is one of the fields behind the first, if there are any. -/
theorem lastTextOfFields_cons (f : String × Document) {fields : List (String × Document)} (h : fields ≠ []) :
    lastTextOfFields (f :: fields) = lastTextOfFields fields := by
  cases fields with
  | nil => exact absurd rfl h
  | cons f' fields => rfl

end Document

namespace Yaml

/-- The text ends in a character other than a blank and a line break. -/
def EndsLine (cs : List Char) : Prop := ∃ ds c, Text.isBlank c = false ∧ cs = ds ++ [c, '\n']

/-- What stands before two characters or more does not change how the text ends. -/
theorem endsLine_append {cs : List Char} (h : 2 ≤ cs.length) (ds : List Char) : EndsLine (ds ++ cs) ↔ EndsLine cs := by
  constructor
  · rintro ⟨es, c, hc, he⟩
    have hs : [c, '\n'] <:+ cs := List.suffix_of_suffix_length_le ⟨es, he.symm⟩ (List.suffix_append ds cs) h
    obtain ⟨es', hes⟩ := hs
    exact ⟨es', c, hc, hes.symm⟩
  · rintro ⟨es, c, hc, rfl⟩
    exact ⟨ds ++ es, c, hc, by simp⟩

theorem EndsLine.two_le {cs : List Char} (h : EndsLine cs) : 2 ≤ cs.length := by
  obtain ⟨ds, c, -, rfl⟩ := h
  simp

/-- Trimming and a line break leave a text of two characters or more as it is if it ends so, and only then. -/
theorem trimEnd_eq_iff {cs : List Char} (h : 2 ≤ cs.length) : Text.trimEnd cs ++ ['\n'] = cs ↔ EndsLine cs := by
  constructor
  · intro ht
    have hne : Text.trimEnd cs ≠ [] := by
      intro hnil
      rw [← ht, hnil] at h
      exact absurd h (by decide)
    have hb : Text.isBlank ((Text.trimEnd cs).getLast hne) = false := Text.isBlank_getLast_trimEnd hne
    refine ⟨(Text.trimEnd cs).dropLast, _, hb, ?_⟩
    rw [← List.singleton_append, ← List.append_assoc, List.dropLast_concat_getLast hne, ht]
  · rintro ⟨ds, c, hc, rfl⟩
    have hb : ∀ d ∈ ['\n'], Text.isBlank d = true := List.all_eq_true.1 (by decide)
    rw [Text.trimEnd_append_cons ds hc, Text.trimEnd_of_isBlank hb, List.append_assoc]
    rfl

/-- The text is written between quotes, or it ends in a character other than a blank, with a line break behind it or not. -/
def KeepsEnd (t : String) : Prop :=
  styleOf t.toList = .singleQuoted ∨ styleOf t.toList = .doubleQuoted ∨
    ∃ cs c, Text.isBlank c = false ∧ (t.toList = cs ++ [c] ∨ t.toList = cs ++ [c, '\n'])

/-- What is no blank is no line break. -/
theorem notBreak_of_notBlank {c : Char} (h : Text.isBlank c = false) : isBreak c = false := by
  have hn : ∀ d, Text.isBlank d = true → c ≠ d := by
    rintro d hd rfl
    rw [h] at hd
    cases hd
  simp [isBreak, hn '\n' (by decide), hn '\u2028' (by decide), hn '\u2029' (by decide)]

/-- A line with its end ends in a character other than a blank and a line break if the line ends in such a character, with a line
break behind it or not. -/
theorem endsLine_endLine (cs : List Char) :
    EndsLine (endLine cs) ↔ ∃ ds c, Text.isBlank c = false ∧ (cs = ds ++ [c] ∨ cs = ds ++ [c, '\n']) := by
  constructor
  · rintro ⟨ds, c, hc, he⟩
    unfold endLine at he
    split at he
    · exact ⟨ds, c, hc, Or.inr he⟩
    · refine ⟨ds, c, hc, Or.inl ((List.append_left_inj ['\n']).1 ?_)⟩
      rw [he, List.append_assoc]
      rfl
  · rintro ⟨ds, c, hc, rfl | rfl⟩
    · refine ⟨ds, c, hc, ?_⟩
      rw [endLine_of_notBreak, List.append_assoc]
      · rfl
      · intro d hd
        rw [List.getLast?_concat] at hd
        rw [← Option.some.inj hd]
        exact notBreak_of_notBlank hc
    · have hb : isBreak '\n' = true := rfl
      exact ⟨ds, c, hc, by simp [endLine, hb]⟩

/-- What stands between quotes keeps its end. -/
theorem endsLine_quoted (single : Bool) (ds : List Char) : EndsLine (endLine (quoteOf single :: ds ++ [quoteOf single])) := by
  rw [endLine_quoted]
  exact ⟨quoteOf single :: ds, quoteOf single, by cases single <;> decide, rfl⟩

/-- The end of a text with its last character. -/
theorem endsLine_concat (cs : List Char) (b : Char) :
    EndsLine (cs ++ [b]) ↔ b = '\n' ∧ ∃ c ∈ cs.getLast?, Text.isBlank c = false := by
  constructor
  · rintro ⟨ds, c, hc, he⟩
    have hs : cs ++ [b] = ds ++ [c] ++ ['\n'] := by rw [he, List.append_assoc, List.singleton_append]
    obtain ⟨rfl, hb⟩ := List.append_inj' hs rfl
    exact ⟨(List.cons.inj hb).1, c, List.getLast?_concat, hc⟩
  · rintro ⟨rfl, c, hl, hc⟩
    obtain ⟨ds, rfl⟩ := List.getLast?_eq_some_iff.1 hl
    exact ⟨ds, c, hc, by simp⟩

/-- A block ends as its text does. -/
theorem endsLine_block (n : Nat) {cs : List Char} (hne : cs ≠ []) :
    EndsLine (endLine (blockHeader cs ++ '\n' :: blockChars n true cs)) ↔ EndsLine (endLine cs) := by
  obtain ⟨es, b, hb, he⟩ : ∃ es b, isBreak b = true ∧ endLine cs = es ++ [b] := by
    unfold endLine
    split
    · rename_i h
      obtain ⟨b, hl⟩ : ∃ b, cs.getLast? = some b := ⟨_, List.getLast?_eq_some_getLast hne⟩
      obtain ⟨es, hes⟩ := List.getLast?_eq_some_iff.1 hl
      rw [hl] at h
      exact ⟨es, b, h, hes⟩
    · exact ⟨cs, '\n', rfl, rfl⟩
  rw [endLine_block n hne, he, blockChars_concat n hb, ← List.cons_append, ← List.append_assoc, endsLine_concat,
    endsLine_concat, List.getLast?_append, List.getLast?_cons, getLast?_blockChars]
  cases es.getLast? with
  | none => simp [show Text.isBlank '\n' = true by decide]
  | some c => rfl

/-- A text is written with its end if it keeps it, and only then. -/
theorem endsLine_scalarChars (n : Nat) (t : String) :
    EndsLine (endLine (scalarChars (n + 2) t.toList)) ↔ KeepsEnd t := by
  rcases Lexer.styleOf_cases t.toList with ⟨hs, hb⟩ | ⟨hs, -⟩ | ⟨hs, -⟩ | hs
  · have hne : t.toList ≠ [] := by
      intro hnil
      rw [hnil] at hb
      cases hb
    simp only [scalarChars, KeepsEnd, hs, endsLine_block _ hne, endsLine_endLine, reduceCtorEq, false_or]
  · simp only [scalarChars, KeepsEnd, hs, endsLine_endLine, reduceCtorEq, false_or]
  · simp only [scalarChars, hs]
    exact iff_of_true (endsLine_quoted true _) (Or.inl hs)
  · simp only [scalarChars, hs]
    exact iff_of_true (endsLine_quoted false _) (Or.inr (Or.inl hs))

/-- The line of a text has two characters at least. -/
theorem two_le_scalarChars (n : Nat) (cs : List Char) : 2 ≤ (endLine (scalarChars (n + 2) cs)).length := by
  rcases Lexer.styleOf_cases cs with ⟨hs, hb⟩ | ⟨hs, ha, hb⟩ | ⟨hs, -⟩ | hs
  · have hne : cs ≠ [] := by
      rintro rfl
      cases hb
    simp only [scalarChars, hs]
    rw [endLine_block _ hne, blockHeader]
    simp only [List.length_append, List.length_cons]
    omega
  · have hlen : 0 < cs.length := by
      cases cs with
      | nil => cases ha
      | cons c cs => exact Nat.succ_pos cs.length
    simp only [scalarChars, hs]
    rw [endLine_of_notBreak fun c hc => (plainFrom_of_allowsPlain hb).notBreak c (List.mem_of_getLast? hc), List.length_append]
    exact Nat.succ_le_succ hlen
  · simp only [scalarChars, hs]
    exact (endsLine_quoted true _).two_le
  · simp only [scalarChars, hs]
    exact (endsLine_quoted false _).two_le

/-! ## Documents -/

/-- A word keeps its end. -/
theorem endsLine_word {cs : List Char} (h : ∀ c ∈ cs, c.isAlphanum = true) (hne : cs ≠ []) : EndsLine (endLine cs) := by
  have hg := isGraphic_of_isAlphanum (h _ (List.getLast_mem hne))
  have hb : Text.isBlank (cs.getLast hne) = false := by
    generalize cs.getLast hne = c at hg
    simp only [isGraphic, Bool.and_eq_true, decide_eq_true_eq] at hg
    simp only [Text.isBlank, Bool.or_eq_false_iff, Bool.and_eq_false_iff, beq_eq_false_iff_ne, decide_eq_false_iff_not]
    omega
  exact (endsLine_endLine cs).2 ⟨cs.dropLast, cs.getLast hne, hb, Or.inl (List.dropLast_concat_getLast hne).symm⟩

/-- A leaf other than a text is written with its end. -/
theorem endsLine_writeLeaf {d : Document} (h : d.Regular) (ht : ∀ t, d ≠ .text t) (n : Nat) : EndsLine (writeLeaf (n + 2) d) := by
  cases d with
  | null => exact endsLine_word isAlphanum_null (by decide)
  | flag value =>
    cases value with
    | true => exact endsLine_word (isAlphanum_toString true) (by decide)
    | false => exact endsLine_word (isAlphanum_toString false) (by decide)
  | number value =>
    obtain ⟨m, rfl⟩ := h
    simp only [writeLeaf, Number.Numeral.toList_text]
    exact endsLine_word (isAlphanum_toDigits m) Nat.toDigits_ne_nil
  | text value => exact absurd rfl (ht value)
  | list items => exact ⟨['['], ']', by decide, rfl⟩
  | record fields => exact ⟨['\x7b'], '\x7d', by decide, rfl⟩

/-- The text ends in the line of a leaf, which is a text if there is a last one, and that one. -/
def EndsInLeaf (cs : List Char) (last : Option String) : Prop :=
  ∃ ds n leaf, cs = ds ++ writeLeaf (n + 2) leaf ∧ leaf.Regular ∧ ∀ t, leaf = .text t ↔ last = some t

theorem EndsInLeaf.append {cs : List Char} {last : Option String} (h : EndsInLeaf cs last) (ds : List Char) :
    EndsInLeaf (ds ++ cs) last := by
  obtain ⟨es, n, leaf, rfl, hl⟩ := h
  exact ⟨ds ++ es, n, leaf, (List.append_assoc ds es _).symm, hl⟩

theorem EndsInLeaf.cons {cs : List Char} {last : Option String} (h : EndsInLeaf cs last) (c : Char) : EndsInLeaf (c :: cs) last :=
  h.append [c]

/-- Trimming and a line break leave such a text as it is if its last text keeps its end, and only then. -/
theorem EndsInLeaf.trimEnd_eq_iff {cs : List Char} {last : Option String} (h : EndsInLeaf cs last) :
    Text.trimEnd cs ++ ['\n'] = cs ↔ ∀ t ∈ last, KeepsEnd t := by
  obtain ⟨ds, n, leaf, rfl, hr, hlast⟩ := h
  by_cases ht : ∃ t, leaf = .text t
  · obtain ⟨t, rfl⟩ := ht
    have hlen : 2 ≤ (writeLeaf (n + 2) (.text t)).length := two_le_scalarChars n t.toList
    rw [Yaml.trimEnd_eq_iff (by rw [List.length_append]; omega), endsLine_append hlen, (hlast t).1 rfl]
    simp only [Option.mem_some_iff, forall_eq']
    exact endsLine_scalarChars n t
  · have hend := endsLine_writeLeaf hr (fun t he => ht ⟨t, he⟩) n
    have hnone : ∀ t ∈ last, KeepsEnd t := fun t hl => absurd ⟨t, (hlast t).2 hl⟩ ht
    rw [Yaml.trimEnd_eq_iff (by rw [List.length_append]; have := hend.two_le; omega), endsLine_append hend.two_le]
    exact iff_of_true hend hnone

/-- A record ends in the line of a leaf if its last field does. -/
theorem endsInLeaf_fields {n : Nat} {key : String} {value : Document} {fields : List (String × Document)}
    (hv : EndsInLeaf (writeValue n value) value.lastText)
    (hf : fields ≠ [] → EndsInLeaf (writeFields n fields) (lastTextOfFields fields)) :
    EndsInLeaf (key.toList ++ ':' :: (writeValue n value ++ writeFields n fields))
      (lastTextOfFields ((key, value) :: fields)) := by
  refine EndsInLeaf.append (EndsInLeaf.cons ?_ ':') key.toList
  by_cases hne : fields = []
  · subst hne
    rw [writeFields, List.append_nil]
    exact hv
  · rw [lastTextOfFields_cons _ hne]
    exact (hf hne).append _

mutual
/-- A document behind a key ends in the line of a leaf. -/
theorem endsInLeaf_writeValue (n : Nat) : (d : Document) → d.Regular → EndsInLeaf (writeValue n d) d.lastText
  | .null, h | .flag _, h | .number _, h | .text _, h | .list [], h | .record [], h =>
    ⟨[' '], n, _, rfl, h, fun t => by simp [lastText, lastTextOfItems, lastTextOfFields]⟩
  | .list (item :: items), h => by
    rw [writeValue_list (List.cons_ne_nil _ _)]
    exact (endsInLeaf_writeItems n (item :: items) h (List.cons_ne_nil _ _)).cons '\n'
  | .record (f :: fields), h => by
    rw [writeValue_record (List.cons_ne_nil _ _)]
    exact (endsInLeaf_writeFields (n + 2) (f :: fields) h (List.cons_ne_nil _ _)).cons '\n'

/-- Items end in the line of a leaf. -/
theorem endsInLeaf_writeItems (n : Nat) : (items : List Document) → RegularItems items → items ≠ [] →
    EndsInLeaf (writeItems n items) (lastTextOfItems items)
  | [], _, hne => absurd rfl hne
  | .record ((key, value) :: fields) :: items, h, _ => by
    rw [writeItems_cons, write_record h.1.1.1.1]
    refine EndsInLeaf.append (EndsInLeaf.cons (EndsInLeaf.cons ?_ ' ') '-') _
    by_cases hne : items = []
    · subst hne
      rw [writeItems, List.append_nil]
      exact endsInLeaf_fields (endsInLeaf_writeValue (n + 2) value h.1.1.1.2) (endsInLeaf_writeFields (n + 2) fields h.1.1.2)
    · rw [lastTextOfItems_cons _ hne]
      exact (endsInLeaf_writeItems n items h.2 hne).append _
  | .record [] :: _, h, _ => absurd rfl h.1.2

/-- Fields end in the line of a leaf. -/
theorem endsInLeaf_writeFields (n : Nat) : (fields : List (String × Document)) → RegularFields fields → fields ≠ [] →
    EndsInLeaf (writeFields n fields) (lastTextOfFields fields)
  | [], _, hne => absurd rfl hne
  | (key, value) :: fields, h, _ => by
    rw [writeFields_cons h.1.1]
    exact (endsInLeaf_fields (endsInLeaf_writeValue n value h.1.2) (endsInLeaf_writeFields n fields h.2)).append _
end

/-- The YAML text of a record with fields ends in the line of a leaf. -/
theorem endsInLeaf_write {d : Document} (h : d.Regular) (hf : d.HasFields) : EndsInLeaf (write 0 d) d.lastText := by
  cases d with
  | record fields =>
    cases fields with
    | nil => exact absurd rfl hf
    | cons f fields =>
      have hw : writeFields 0 (f :: fields) = write 0 (.record (f :: fields)) := by
        rw [writeFields_cons h.1.1, write_record h.1.1]
        rfl
      rw [← hw]
      exact endsInLeaf_writeFields 0 (f :: fields) h (List.cons_ne_nil f fields)
  | _ => exact hf.elim

end Yaml

/-! ## Trees -/

namespace Pattern

mutual
/-- The text that is written last, if the tree ends in a text: the message of a leaf, or its value where nothing stands behind
it, and of a group the last text of its last child. -/
def lastText : Pattern → Option String
  | leaf notes _ value =>
    match notes.message, notes.quantifier with
    | some message, _ => some message
    | none, some _ => none
    | none, none => some value.resolve
  | group _ _ children => lastTextOfAll children

/-- The text that is written last of a list of trees. -/
def lastTextOfAll : List Pattern → Option String
  | [] => none
  | [p] => lastText p
  | _ :: ps => lastTextOfAll ps
end

end Pattern

/-- A value is written with its innermost text at the end. -/
theorem Document.lastText_ofValue (v : Value) : (DraftValue.ofValue v).toDocument.lastText = some v.resolve := by
  induction v with
  | literal t => rfl
  | nested inner ih => exact ih

/-- A quantifier is written with no text at the end. -/
theorem Document.lastText_quantifier (q : Quantifier) : q.toDocument.lastText = none := by
  obtain ⟨min, max, exactly, lazy, greedy⟩ := q
  cases min <;> cases max <;> cases exactly <;> cases lazy <;> cases greedy <;> rfl

mutual
/-- The document of a tree ends in the last text of the tree. -/
theorem Document.lastText_toDocument : (p : Pattern) → p.toDraft.toDocument.lastText = p.lastText
  | .leaf ⟨id, message, quantifier⟩ kind value => by
    cases message with
    | some message => cases id <;> cases quantifier <;> rfl
    | none =>
      cases quantifier with
      | some quantifier => cases id <;> exact Document.lastText_quantifier quantifier
      | none => cases id <;> exact Document.lastText_ofValue (.nested value)
  | .group ⟨id, message, quantifier⟩ properties children => by
    cases id <;> cases quantifier <;> cases message <;> exact Document.lastTextOfItems_toDocuments children

/-- The documents of a list of trees end in the last text of the trees. -/
theorem Document.lastTextOfItems_toDocuments : (ps : List Pattern) →
    lastTextOfItems (Draft.toDocuments (Pattern.toDrafts ps)) = Pattern.lastTextOfAll ps
  | [] => rfl
  | [p] => Document.lastText_toDocument p
  | _ :: p :: ps => Document.lastTextOfItems_toDocuments (p :: ps)
end

namespace Pattern

/-- What the command line prints of a tree that it converts. -/
def printed (target : Format) (p : Pattern) : String :=
  String.ofList (Text.trimEnd (p.encode target .indented).toList ++ ['\n'])

/-- In YAML what is printed of a tree is what was converted if the last text of the tree keeps its end, and only then. -/
theorem printed_yaml_iff (p : Pattern) : p.printed .yaml = p.encode .yaml .indented ↔ ∀ t ∈ p.lastText, Yaml.KeepsEnd t := by
  have he := Yaml.endsInLeaf_write (Document.regular_toDraft p) (Document.hasFields_toDraft p)
  have ht : (p.encode .yaml .indented).toList = Yaml.write 0 p.toDraft.toDocument := String.toList_ofList
  rw [← Document.lastText_toDocument, ← he.trimEnd_eq_iff, printed, ht]
  exact String.ofList_inj

/-- In JSON what is printed of a tree is what was converted and a line break. -/
theorem printed_json (p : Pattern) :
    p.printed .json = String.ofList (Json.write .indented 0 p.toDraft.toDocument ++ ['\n']) := by
  have ht : (p.encode .json .indented).toList = Json.write .indented 0 p.toDraft.toDocument := String.toList_ofList
  have htrim : Text.trimEnd (Json.write .indented 0 p.toDraft.toDocument) = Json.write .indented 0 p.toDraft.toDocument := by
    obtain ⟨fields, hd⟩ : ∃ fields, p.toDraft.toDocument = .record fields := by
      cases p <;> exact ⟨_, rfl⟩
    obtain ⟨ds, hds⟩ := List.getLast?_eq_some_iff.1 (Json.write_record_enclosed .indented 0 fields).2
    rw [hd, hds, Text.trimEnd_append_cons ds (by decide)]
    rfl
  rw [printed, ht, htrim]

/-- What is printed of a tree in JSON is read as what was converted. -/
theorem decode_printed_json {σ : Type} (ids : IdSource σ) (p : Pattern) (s : σ) :
    decode ids (p.printed .json) s = decode ids (p.encode .json .indented) s := by
  have hd : Format.detect (p.printed .json) = some .json := by
    rw [printed_json]
    exact Format.detect_json .indented (Document.hasFields_toDraft p) (List.all_eq_true.1 (by decide))
  have hr : Draft.ofText? .json (p.printed .json) = Draft.ofText? .json (p.encode .json .indented) := by
    have he : p.encode .json .indented = Json.text .indented p.toDraft.toDocument := rfl
    have hspace : ∀ c ∈ ['\n'], Json.isSpace c = true := List.all_eq_true.1 (by decide)
    rw [printed_json, he, Draft.ofText?, Draft.ofText?, Json.parse?_write _ _ (Document.regular_toDraft p) hspace,
      Json.parse?_text _ _ (Document.regular_toDraft p)]
  simp only [decode, hd, Format.detect_encode, decodeAs, hr]

end Pattern

open Pattern CommandLine

/-- What the command line prints of a tree that it converts is read as what was converted, always in JSON and in YAML where the
last text of the tree keeps its end. So it gives the same tree, or is refused in the same way, whatever the source of
identifiers. -/
theorem printed_text_reads_back (target : Format) (p : Pattern) (hend : target = .json ∨ ∀ t ∈ p.lastText, Yaml.KeepsEnd t) :
    (∀ (σ : Type) (ids : IdSource σ) (input text : String) (s s' : σ), decode ids text s = (.ok p, s') →
      (Command.convert input target).answer ids text s = { stdout := p.printed target }) ∧
    (∀ (σ : Type) (ids : IdSource σ) (s : σ),
      decode ids (p.printed target) s = decode ids (p.encode target .indented) s) := by
  refine ⟨fun σ ids input text s s' h => ?_, fun σ ids s => ?_⟩
  · simp only [Command.answer, convert, h, Except.map, Outcome.ofResult, printed, String.ofList_append]
  · cases target with
    | json => exact decode_printed_json ids p s
    | yaml =>
      have hkeeps := hend.resolve_left (by decide)
      rw [(printed_yaml_iff p).2 hkeeps]

/-- A literal that has an identifier. -/
def labelled (text : String) : Pattern := (literal text).withId "label"

/-- A value that ends in one line break keeps it in YAML. In JSON a value may end in more. -/
theorem printed_text_reads_back_breaks :
    (∀ t ∈ (labelled "a\n").lastText, Yaml.KeepsEnd t) ∧
      decode .counting ((labelled "a\n").printed .yaml) {} = (.ok (labelled "a\n"), {}) ∧
      decode .counting ((labelled "a\n\n").printed .json) {} = (.ok (labelled "a\n\n"), {}) := by
  have hk : ∀ t ∈ (labelled "a\n").lastText, Yaml.KeepsEnd t := by
    intro t ht
    cases ht
    exact Or.inr (Or.inr ⟨[], 'a', by decide, Or.inr (by decide)⟩)
  have hy := decode_encode .counting .yaml .indented (p := labelled "a\n") rfl rfl {}
  have hj := decode_encode .counting .json .indented (p := labelled "a\n\n") rfl rfl {}
  rw [if_pos (by decide)] at hy hj
  refine ⟨hk, ?_, ?_⟩
  · rw [(printed_text_reads_back .yaml (labelled "a\n") (Or.inr hk)).2, hy]
  · rw [(printed_text_reads_back .json (labelled "a\n\n") (Or.inl rfl)).2, hj]

/-- Not every converted text keeps its meaning when it is printed: in YAML a value that ends in two line breaks loses one. -/
theorem printed_text_loses_break :
    decode .counting ((labelled "a\n\n").encode .yaml .indented) {} = (.ok (labelled "a\n\n"), {}) ∧
      decode .counting ((labelled "a\n\n").printed .yaml) {} = (.ok (labelled "a\n"), {}) ∧
      labelled "a\n\n" ≠ labelled "a\n" := by
  have hd := decode_encode .counting .yaml .indented (p := labelled "a\n\n") rfl rfl {}
  rw [if_pos (by decide)] at hd
  -- The header of the block still keeps all line breaks, and one is left to keep.
  have ht : Yaml.Token.ofChars? (Text.trimEnd (Yaml.write 0 (labelled "a\n\n").toDraft.toDocument) ++ ['\n']) =
      some ((labelled "a\n").toDraft.toDocument.tokens ++ [.streamEnd]) := by decide +kernel
  have hp : (labelled "a\n\n").printed .yaml =
      String.ofList (Text.trimEnd (Yaml.write 0 (labelled "a\n\n").toDraft.toDocument) ++ ['\n']) := by
    have hc : ((labelled "a\n\n").encode .yaml .indented).toList = Yaml.write 0 (labelled "a\n\n").toDraft.toDocument :=
      String.toList_ofList
    rw [printed, hc]
  have hf : Format.detect ((labelled "a\n\n").printed .yaml) = some .yaml := by
    rw [hp]
    decide +kernel
  have hr : Draft.ofText? .yaml ((labelled "a\n\n").printed .yaml) = some (labelled "a\n").toDraft := by
    rw [hp, Yaml.ofText?_of_treeTokens ht, if_pos (by decide)]
  refine ⟨hd, ?_, ?_⟩
  · simp only [decode, hf, decodeAs, hr]
    exact Draft.toPattern_toDraft .counting [] {} (labelled "a\n") rfl
  · simp [labelled, Pattern.literal, withId, withNotes]

end RegexTree

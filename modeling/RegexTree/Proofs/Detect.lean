import RegexTree.Codec
import RegexTree.Proofs.Yaml.Layout

/-!
# The format of a written text

A text that begins and ends with characters other than blanks is what trimming leaves of it, so the text of a record, which
stands in braces, is taken for JSON, with blanks behind it too. The YAML text of a record begins with a line that has a key, so
it is taken for YAML, whatever trimming takes away behind the colon.
-/

namespace RegexTree

namespace Text

/-- Nothing is trimmed before a character other than a blank. -/
theorem trimStart_cons {c : Char} (h : isBlank c = false) (cs : List Char) : trimStart (c :: cs) = c :: cs := by
  simp [trimStart, h]

/-- What is trimmed behind a character other than a blank is behind it. -/
theorem trimEnd_append_cons (cs : List Char) {c : Char} (h : isBlank c = false) (ds : List Char) :
    trimEnd (cs ++ c :: ds) = cs ++ c :: trimEnd ds := by
  have hr : (cs ++ c :: ds).reverse = ds.reverse ++ c :: cs.reverse := by simp
  rw [trimEnd, trimEnd, hr, List.dropWhile_append]
  split
  · rename_i he
    rw [List.isEmpty_iff] at he
    rw [he, List.dropWhile_cons_of_neg (by simp [h])]
    simp
  · simp

/-- What is left ends in a character other than a blank. -/
theorem isBlank_getLast_trimEnd {cs : List Char} (h : trimEnd cs ≠ []) : isBlank ((trimEnd cs).getLast h) = false := by
  have hne : cs.reverse.dropWhile isBlank ≠ [] := fun hnil => h (by rw [trimEnd, hnil, List.reverse_nil])
  have hb := List.head_dropWhile_not isBlank hne
  simpa only [trimEnd, List.getLast_reverse] using hb

/-- Blanks are trimmed. -/
theorem trimEnd_of_isBlank {cs : List Char} (h : ∀ c ∈ cs, isBlank c = true) : trimEnd cs = [] := by
  have hd : (cs.reverse ++ []).dropWhile isBlank = [] :=
    List.dropWhile_append_of_pos fun c hc => h c (List.mem_reverse.1 hc)
  rw [List.append_nil] at hd
  rw [trimEnd, hd, List.reverse_nil]

/-- Nothing else is trimmed from a text that begins and ends with other characters than blanks and has blanks behind it. -/
theorem trim_append {cs blanks : List Char} {first last : Char} (hf : cs.head? = some first) (hl : cs.getLast? = some last)
    (hfb : isBlank first = false) (hlb : isBlank last = false) (hb : ∀ c ∈ blanks, isBlank c = true) :
    trim (cs ++ blanks) = cs := by
  obtain ⟨ds, rfl⟩ := List.getLast?_eq_some_iff.1 hl
  have hs : trimStart (ds ++ [last] ++ blanks) = ds ++ [last] ++ blanks := by
    obtain ⟨c, cs, hc⟩ := List.exists_cons_of_ne_nil (show ds ++ [last] ≠ [] by simp)
    rw [hc] at hf ⊢
    obtain rfl := Option.some.inj hf
    exact trimStart_cons hfb _
  rw [trim, hs, List.append_assoc, List.singleton_append, trimEnd_append_cons ds hlb, trimEnd_of_isBlank hb]

end Text

/-- A text is enclosed by its first and its last character, unless these are blanks, with blanks behind it too. -/
theorem Format.detectEnclosed_json {first last : Char} {cs blanks : List Char} (hf : cs.head? = some first)
    (hl : cs.getLast? = some last) (hfb : Text.isBlank first = false) (hlb : Text.isBlank last = false)
    (hb : ∀ c ∈ blanks, Text.isBlank c = true) : detectEnclosed first last (String.ofList (cs ++ blanks)) = some json := by
  have he : isEnclosed first last cs = true := by simp [isEnclosed, hf, hl]
  simp only [detectEnclosed, String.toList_ofList, Text.trim_append hf hl hfb hlb hb, he, if_true]

/-- The text of a record stands in braces. -/
theorem Json.write_record_enclosed (layout : Layout) (level : Nat) (fields : List (String × Document)) :
    (write layout level (.record fields)).head? = some '\x7b' ∧
      (write layout level (.record fields)).getLast? = some '\x7d' := by
  cases fields with
  | nil => exact ⟨rfl, rfl⟩
  | cons f fields =>
    obtain ⟨key, d⟩ := f
    refine ⟨rfl, ?_⟩
    rw [write]
    exact List.getLast?_concat

/-- The JSON text of a record is taken for JSON, with blanks behind it too. -/
theorem Format.detect_json (layout : Json.Layout) {d : Document} (h : d.HasFields) {blanks : List Char}
    (hb : ∀ c ∈ blanks, Text.isBlank c = true) : detect (String.ofList (Json.write layout 0 d ++ blanks)) = some json := by
  cases d with
  | record fields =>
    obtain ⟨hf, hl⟩ := Json.write_record_enclosed layout 0 fields
    exact detectEnclosed_json hf hl (by decide) (by decide) hb
  | _ => exact h.elim

/-! ## YAML -/

/-- The names of fields are keys. -/
theorem fieldNames_isKey : ∀ key ∈ Document.fieldNames, key.toList ≠ [] ∧
    ∀ c ∈ key.toList, isKeyChar c = true ∧ c ≠ ':' ∧ c ≠ '-' ∧ Text.isBlank c = false := by
  have h : ∀ key ∈ Document.fieldNames, key.toList ≠ [] ∧
      key.toList.all (fun c => isKeyChar c && (c != ':' && (c != '-' && !Text.isBlank c))) = true := by
    decide
  simpa using h

/-- A line that begins with the name of a field and a colon is the line of a field, and so is one with the dash of an item in front
of the name. -/
theorem isFieldLine_key {key : String} (h : key ∈ Document.fieldNames) {dash : List Char} (hd : dash = [] ∨ dash = ['-', ' '])
    {rest : List Char} (hr : rest.head?.all Text.isBlank = true) : isFieldLine (dash ++ (key.toList ++ ':' :: rest)) = true := by
  obtain ⟨hne, hk⟩ := fieldNames_isKey key h
  have hstart : dropDash (Text.trimStart (dash ++ (key.toList ++ ':' :: rest))) = key.toList ++ ':' :: rest := by
    rcases hd with rfl | rfl
    · obtain ⟨c, cs, hc⟩ := List.exists_cons_of_ne_nil hne
      obtain ⟨-, -, hd, hb⟩ := hk c (by simp [hc])
      rw [List.nil_append, hc, List.cons_append, Text.trimStart_cons hb, dropDash]
      intro rest' heq
      exact hd (List.cons_eq_cons.1 heq).1
    · exact congrArg dropDash (Text.trimStart_cons (by decide) _)
  have hend : Text.trimEnd key.toList = key.toList := by
    have hb := (hk _ (List.getLast_mem hne)).2.2.2
    rw [← List.dropLast_concat_getLast hne, Text.trimEnd_append_cons _ hb]
    rfl
  have htest : ∀ c ∈ key.toList, (c != ':') = true := fun c hc => by simp [(hk c hc).2.1]
  have hcolon : ∀ c ∈ (':' :: rest).head?, (c != ':') = false := by simp
  simp only [isFieldLine, hstart, Span.takeWhile_append htest hcolon, Span.dropWhile_append htest hcolon, hend, hr]
  simpa [hne] using fun c hc => (hk c hc).1

/-- A text has the line of a field if its first line is one. -/
theorem hasFieldLine_of_first {cs : List Char} (h : isFieldLine (cs.takeWhile (· != '\n')) = true) : hasFieldLine cs = true := by
  have hl : ∀ cs : List Char, ∃ lines, textLines cs = cs.takeWhile (· != '\n') :: lines := by
    intro cs
    induction cs with
    | nil => exact ⟨[], rfl⟩
    | cons c cs ih =>
      obtain ⟨lines, hl⟩ := ih
      by_cases hc : c = '\n'
      · exact ⟨textLines cs, by simp [textLines, hc]⟩
      · exact ⟨lines, by simp [textLines, hc, hl]⟩
  obtain ⟨lines, hs⟩ := hl cs
  rw [hasFieldLine, hs, List.any_cons, h, Bool.true_or]

/-- A beginning of a text that begins with a blank, if with anything, does so too. -/
theorem isBlank_head?_of_beginning {cs ds : List Char} (h : ds <+: cs) (hc : cs.head?.all Text.isBlank = true) :
    ds.head?.all Text.isBlank = true := by
  cases ds with
  | nil => rfl
  | cons d ds =>
    obtain ⟨rest, rfl⟩ := h
    exact hc

/-- What is left of a text is a beginning of it. -/
theorem Text.trimEnd_isBeginning (cs : List Char) : trimEnd cs <+: cs := by
  rw [trimEnd, ← List.reverse_suffix, List.reverse_reverse]
  exact List.dropWhile_suffix isBlank

/-- The name of a field, with the dash of an item in front of it or not, begins with a letter or with the dash. -/
theorem exists_head_key {key : String} (h : key ∈ Document.fieldNames) {dash : List Char} (hd : dash = [] ∨ dash = ['-', ' ']) :
    ∃ c cs, dash ++ key.toList = c :: cs ∧ (c.isAlpha = true ∨ c = '-') ∧ Text.isBlank c = false := by
  rcases hd with rfl | rfl
  · obtain ⟨hne, hk⟩ := fieldNames_isKey key h
    obtain ⟨c, cs, hc⟩ := List.exists_cons_of_ne_nil hne
    have hm : c ∈ key.toList := by simp [hc]
    exact ⟨c, cs, hc, Or.inl ((Yaml.fieldNames_spec key h).2.2.2 c hm), (hk c hm).2.2.2⟩
  · exact ⟨'-', ' ' :: key.toList, rfl, Or.inr rfl, by decide⟩

/-- A text that begins with the name of a field, a colon and a blank is taken for YAML, and so is one with the dash of an item in front
of the name. -/
theorem Format.detectEnclosed_key {key : String} (h : key ∈ Document.fieldNames) {dash : List Char}
    (hd : dash = [] ∨ dash = ['-', ' ']) {rest : List Char} (hr : rest.head?.all Text.isBlank = true) {first : Char}
    (hfirst : first.isAlpha = false ∧ first ≠ '-') (last : Char) :
    detectEnclosed first last (String.ofList (dash ++ (key.toList ++ ':' :: rest))) = some yaml := by
  obtain ⟨c, cs, hc, hletter, hb⟩ := exists_head_key h hd
  have htrim : Text.trim (dash ++ (key.toList ++ ':' :: rest)) = dash ++ (key.toList ++ ':' :: Text.trimEnd rest) := by
    rw [← List.append_assoc, ← List.append_assoc, Text.trim, hc, List.cons_append, Text.trimStart_cons hb, ← List.cons_append,
      Text.trimEnd_append_cons _ (by decide)]
  have hopen : isEnclosed first last (dash ++ (key.toList ++ ':' :: Text.trimEnd rest)) = false := by
    have hcf : c ≠ first := by
      rintro rfl
      rcases hletter with hletter | hletter
      · cases hletter.symm.trans hfirst.1
      · exact hfirst.2 hletter
    rw [← List.append_assoc, hc]
    simp [isEnclosed, hcf]
  have hline : (dash ++ (key.toList ++ ':' :: Text.trimEnd rest)).takeWhile (· != '\n') =
      dash ++ (key.toList ++ ':' :: (Text.trimEnd rest).takeWhile (· != '\n')) := by
    have hk : ∀ d ∈ key.toList, (d != '\n') = true := by
      intro d hd
      have hn := ((fieldNames_isKey key h).2 d hd).2.2.2
      rw [bne_iff_ne]
      rintro rfl
      exact absurd hn (by decide)
    have hdash : ∀ d ∈ dash, (d != '\n') = true := by
      rcases hd with rfl | rfl
      · exact List.forall_mem_nil _
      · exact List.all_eq_true.1 (by decide)
    rw [List.takeWhile_append_of_pos hdash, List.takeWhile_append_of_pos hk]
    simp
  have hf : hasFieldLine (dash ++ (key.toList ++ ':' :: Text.trimEnd rest)) = true := by
    refine hasFieldLine_of_first ?_
    rw [hline]
    have hline : (Text.trimEnd rest).takeWhile (· != '\n') <+: Text.trimEnd rest := List.takeWhile_prefix _
    exact isFieldLine_key h hd (isBlank_head?_of_beginning (hline.trans (Text.trimEnd_isBeginning rest)) hr)
  simp only [detectEnclosed, String.toList_ofList, htrim, hopen, hf, Bool.false_eq_true, if_false, if_true]

/-- What stands behind the colon of a field begins with a blank. -/
theorem Yaml.isBlank_writeValue (n : Nat) (d : Document) (rest : List Char) :
    (writeValue n d ++ rest).head?.all Text.isBlank = true := by
  obtain ⟨c, cs, hc, hg⟩ := writeValue_eq_cons n d
  rw [hc]
  rcases hg with rfl | rfl <;> rfl

/-- The YAML text of a record with fields is taken for YAML. -/
theorem Format.detect_yaml {d : Document} (h : d.Regular) (hf : d.HasFields) : detect (Yaml.render d) = some yaml := by
  cases d with
  | record fields =>
    cases fields with
    | nil => exact absurd rfl hf
    | cons f fields =>
      rw [Yaml.render, Yaml.write_record h.1.1]
      exact detectEnclosed_key h.1.1 (Or.inl rfl) (Yaml.isBlank_writeValue 0 f.2 _) (by decide) _
  | _ => exact hf.elim

/-- The text of a tree is taken for what it is. -/
theorem Format.detect_encode (format : Format) (layout : Json.Layout) (p : Pattern) :
    detect (p.encode format layout) = some format := by
  cases format with
  | json =>
    have he : p.encode .json layout = String.ofList (Json.write layout 0 p.toDraft.toDocument ++ []) := by
      rw [List.append_nil]
      rfl
    rw [he]
    exact detect_json layout (Document.hasFields_toDraft p) (List.forall_mem_nil _)
  | yaml => exact detect_yaml (Document.regular_toDraft p) (Document.hasFields_toDraft p)

/-! ## Reading what is detected -/

/-- Decoding reads the format that a text is taken for. -/
theorem Pattern.decode_of_detect {σ : Type} (ids : IdSource σ) {format : Format} {text : String}
    (h : Format.detect text = some format) (s : σ) : decode ids text s = decodeAs ids format text s := by
  unfold decode
  rw [h]

/-- Decoding a list reads the format that its text is taken for. -/
theorem Pattern.decodeList_of_detectList {σ : Type} (ids : IdSource σ) {format : Format} {text : String}
    (h : Format.detectList text = some format) (s : σ) : decodeList ids text s = decodeListAs ids format text s := by
  unfold decodeList
  rw [h]

end RegexTree

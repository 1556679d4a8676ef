import RegexTree.Proofs.Detect

/-!
# Written texts, detected

Whatever the texts in a tree look like, a written tree is taken for the format it is written in, and so is a written list of trees.
What decides is how the text begins and ends: JSON stands in braces or brackets, and YAML begins with the name of a field, which a list
has behind the dash of its first item. Only the empty list is written in brackets in both formats, and it is read as JSON
(`written_text_detected`).
-/

namespace RegexTree

variable {σ : Type}

namespace DetectedAux

open Pattern

/-- The JSON text of a list stands in brackets. -/
theorem write_list_enclosed (layout : Json.Layout) (level : Nat) (items : List Document) :
    (Json.write layout level (.list items)).head? = some '[' ∧ (Json.write layout level (.list items)).getLast? = some ']' := by
  cases items with
  | nil => exact ⟨rfl, rfl⟩
  | cons item items =>
    refine ⟨rfl, ?_⟩
    rw [Json.write]
    exact List.getLast?_concat

/-- A text in brackets with blanks behind it is taken for a JSON list. -/
theorem detectList_json {cs blanks : List Char} (h : cs.head? = some '[' ∧ cs.getLast? = some ']')
    (hb : ∀ c ∈ blanks, Text.isBlank c = true) : Format.detectList (String.ofList (cs ++ blanks)) = some .json :=
  Format.detectEnclosed_json h.1 h.2 (by decide) (by decide) hb

/-- The YAML text of a list is taken for YAML where its first item is a record with fields. -/
theorem detectList_yaml {d : Document} (h : d.Regular) (hf : d.HasFields) (ds : List Document) :
    Format.detectList (Yaml.render (.list (d :: ds))) = some .yaml := by
  unfold Document.HasFields at hf
  cases d with
  | record fields =>
    obtain ⟨f, fields, rfl⟩ := List.exists_cons_of_ne_nil hf
    have hw : Yaml.write 0 (.list (.record (f :: fields) :: ds)) = ['-', ' '] ++ (f.1.toList ++ ':' ::
        (Yaml.writeValue 2 f.2 ++ (Yaml.writeFields 2 fields ++ Yaml.writeItems 0 ds))) := by
      rw [Yaml.write, Yaml.write_record h.1.1]
      simp only [List.cons_append, List.append_assoc, List.nil_append]
    rw [Yaml.render, hw]
    exact Format.detectEnclosed_key h.1.1 (Or.inr rfl) (Yaml.isBlank_writeValue 2 f.2 _) (by decide) ']'
  | _ => exact hf.elim

/-- The text of a list with a tree in it is taken for what it is. -/
theorem detectList_encodeList (format : Format) (p : Pattern) (ps : List Pattern) :
    Format.detectList (encodeList format (p :: ps)) = some format := by
  cases format with
  | json =>
    have he : encodeList .json (p :: ps) =
        String.ofList (Json.write .compact 0 (.list (Draft.toDocuments (toDrafts (p :: ps)))) ++ []) := by
      rw [List.append_nil]
      rfl
    rw [he]
    exact detectList_json (write_list_enclosed .compact 0 _) (List.forall_mem_nil _)
  | yaml => exact detectList_yaml (Document.regular_toDraft p) (Document.hasFields_toDraft p) _

/-- The text of the empty list is a pair of brackets, which YAML ends its line behind. -/
theorem encodeList_empty (format : Format) :
    ∃ blanks, encodeList format [] = String.ofList (['[', ']'] ++ blanks) ∧ (blanks = [] ∨ blanks = ['\n']) := by
  cases format with
  | json => exact ⟨[], rfl, Or.inl rfl⟩
  | yaml => exact ⟨['\n'], rfl, Or.inr rfl⟩

/-- The text of the empty list is taken for JSON, and as JSON it is the empty list. -/
theorem empty_is_json (format : Format) :
    Format.detectList (encodeList format []) = some .json ∧ Draft.listOfText? .json (encodeList format []) = some [] := by
  obtain ⟨blanks, he, hblanks⟩ := encodeList_empty format
  rw [he]
  rcases hblanks with rfl | rfl
  · exact ⟨detectList_json ⟨rfl, rfl⟩ (List.forall_mem_nil _), rfl⟩
  · exact ⟨detectList_json ⟨rfl, rfl⟩ (List.all_eq_true.1 (by decide)), rfl⟩

end DetectedAux

namespace Pattern

open DetectedAux

/-- The text that a tree is written as is taken for the format it is written in, so that decoding it reads that format. The same holds
for the text of a list with a tree in it. The text of the empty list is taken for JSON, whichever the format, and is read as the empty
list. -/
theorem written_text_detected (ids : IdSource σ) (format : Format) (p : Pattern) (ps : List Pattern) (s : σ) :
    (∀ layout, Format.detect (p.encode format layout) = some format ∧
        decode ids (p.encode format layout) s = decodeAs ids format (p.encode format layout) s) ∧
      Format.detectList (encodeList format (p :: ps)) = some format ∧
      decodeList ids (encodeList format (p :: ps)) s = decodeListAs ids format (encodeList format (p :: ps)) s ∧
      Format.detectList (encodeList format []) = some .json ∧ decodeList ids (encodeList format []) s = (.ok [], s) := by
  have hlist := detectList_encodeList format p ps
  obtain ⟨hempty, hread⟩ := empty_is_json format
  refine ⟨?_, hlist, decodeList_of_detectList ids hlist s, hempty, ?_⟩
  · intro layout
    have htree := Format.detect_encode format layout p
    exact ⟨htree, decode_of_detect ids htree s⟩
  · rw [decodeList_of_detectList ids hempty s, decodeListAs, hread]
    rfl

end Pattern

end RegexTree

import RegexTree.Proofs.DraftRoundTrip
import RegexTree.Proofs.Json.Draft
import RegexTree.Proofs.Lines

/-!
# Values written as texts of their own

The JSON text of a value states the value, and it is read as such with any blanks around it, since the blanks are trimmed before
anything is read. The text inside all levels comes back as it is, though it may be the text of a value itself: it takes a second reading
to get at that (`written_value_reads_back`). A value that nests too deeply for JSON is not read, and then the text stands for itself.
-/

namespace RegexTree

namespace Value

/-- The JSON text of a value, with an object for each level and one around them. -/
def encode (layout : Json.Layout) (v : Value) : String := Json.text layout (DraftValue.ofNodeValue v).toDocument

end Value

namespace ValueTextAux

open Json LinesAux Value

/-- The document of a value is a regular one. -/
theorem regular_ofNodeValue (v : Value) : (DraftValue.ofNodeValue v).toDocument.Regular :=
  Document.regular_ofValue (.nested v)

/-- The text of a value spells an object. -/
theorem spells_encode (layout : Layout) (v : Value) :
    ∃ members, Spells (.object members) (write layout 0 (DraftValue.ofNodeValue v).toDocument) :=
  ⟨_, spells_write layout 0 _ (regular_ofNodeValue v)⟩

/-- The text of a value states the value where the objects are no more than the levels that are looked into, and else nothing. -/
theorem ofText?_encode (layout : Layout) (v : Value) :
    DraftValue.ofText? .json (v.encode layout) = if v.nesting < levels then some (.ofValue v) else none := by
  rw [encode, DraftValue.ofText?, parse?_text _ layout (regular_ofNodeValue v), presents.readValueObject_toDocument]
  split <;> rfl

/-- What is trimmed from the text of a value with blanks around it are the blanks. -/
theorem trim_padded (layout : Layout) (v : Value) {before after : String} (hb : Text.isBlankText before)
    (ha : Text.isBlankText after) :
    Text.trim (before ++ v.encode layout ++ after).toList = write layout 0 (DraftValue.ofNodeValue v).toDocument := by
  obtain ⟨members, hs⟩ := spells_encode layout v
  rw [String.toList_append, String.toList_append, List.append_assoc, encode, text, String.toList_ofList]
  exact trim_around hs (List.all_eq_true.1 hb) (List.all_eq_true.1 ha)

/-- With blanks around it the text of a value is read as what it states without them, and it stands for itself where it states
nothing. -/
theorem ofText_padded (layout : Layout) (v : Value) {before after : String} (hb : Text.isBlankText before)
    (ha : Text.isBlankText after) : ofText (before ++ v.encode layout ++ after) =
      if v.nesting ≤ 126 then v else .literal (before ++ v.encode layout ++ after) := by
  obtain ⟨members, hs⟩ := spells_encode layout v
  have hread := ofText?_encode layout v
  rw [encode, text] at hread
  have hl : v.nesting < levels ↔ v.nesting ≤ 126 := Nat.lt_succ_iff
  unfold ofText
  simp only [trim_padded layout v hb ha, isEnclosed_brace hs, if_true, hread, hl]
  by_cases hn : v.nesting ≤ 126
  · simp only [hn, if_true, Option.map_some, Draft.toValue_ofValue]
  · simp only [hn, if_false, Option.map_none]

end ValueTextAux

namespace Value

open ValueTextAux

/-- The JSON text of a value with at most 126 levels is read as the value, with any blanks around it, and a text of more levels
is kept as the text that it is, blanks and all. Only the levels of the value are read: where the text inside them is itself that of a
value, it comes back as a text, and is read as that value only when it is read again. -/
theorem written_value_reads_back (layout : Json.Layout) (v : Value) {before after : String} (hb : Text.isBlankText before)
    (ha : Text.isBlankText after) :
    let written := before ++ v.encode layout ++ after
    (v.nesting ≤ 126 → ofText written = v) ∧ (126 < v.nesting → ofText written = literal written) ∧
      ∀ (inner : Value) (layout' : Json.Layout), v.nesting ≤ 126 → inner.nesting ≤ 126 → v.resolve = inner.encode layout' →
        (ofText written).resolve = inner.encode layout' ∧ ofText (ofText written).resolve = inner := by
  intro written
  have hread := ofText_padded layout v hb ha
  have hv : v.nesting ≤ 126 → ofText written = v := by
    intro hn
    rw [hread, if_pos hn]
  refine ⟨hv, ?_, ?_⟩
  · intro hn
    rw [hread, if_neg (Nat.not_le.2 hn)]
  · intro inner layout' hn hi hr
    have hempty : Text.isBlankText "" := rfl
    have hinner := ofText_padded layout' inner hempty hempty
    rw [String.empty_append, String.append_empty, if_pos hi] at hinner
    rw [hv hn, hr]
    exact ⟨rfl, hinner⟩

/-- A text that reads like a field and like an object, inside a value whose text is inside 126 levels, and inside 127. -/
theorem written_value_reads_back_at_limit :
    let inner : Value := nested (literal "Value: \x7b\"\t\x7d\n")
    let value (n : Nat) : Value := wrap n (literal (inner.encode .indented))
    let written (n : Nat) : String := "\u00a0\n" ++ (value n).encode .compact ++ "\u2028"
    Text.isBlankText "\u00a0\n" ∧ Text.isBlankText "\u2028" ∧ (value 126).nesting ≤ 126 ∧ 126 < (value 127).nesting ∧
      inner.nesting ≤ 126 ∧ (value 126).resolve = inner.encode .indented ∧ ofText (written 126) = value 126 ∧
      ofText (written 127) = literal (written 127) ∧ ofText (ofText (written 126)).resolve = inner := by
  intro inner value written
  have hb : Text.isBlankText "\u00a0\n" := rfl
  have ha : Text.isBlankText "\u2028" := rfl
  have hn : ∀ n, (value n).nesting = n := by
    intro n
    rw [nesting_wrap, nesting, Nat.zero_add]
  have hfit : (value 126).nesting ≤ 126 := Nat.le_of_eq (hn 126)
  have hdeep : 126 < (value 127).nesting := Nat.lt_of_lt_of_eq (by decide) (hn 127).symm
  have hinner : inner.nesting ≤ 126 := by decide
  have hr : (value 126).resolve = inner.encode .indented := resolve_wrap 126 _
  obtain ⟨hread, -, hagain⟩ := written_value_reads_back .compact (value 126) hb ha
  obtain ⟨-, hkept, -⟩ := written_value_reads_back .compact (value 127) hb ha
  exact ⟨hb, ha, hfit, hdeep, hinner, hr, hread hfit, hkept hdeep, (hagain inner .indented hfit hinner hr).2⟩

end Value

end RegexTree

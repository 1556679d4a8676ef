import RegexTree.Proofs.Yaml.Layout
import RegexTree.Yaml.Node

/-!
# The nodes of a document

The tokens of a document make the node that presents it (`Document.toNode`), which carries neither anchors nor tags. So the
tree of a text with the tokens of a record has this node at its root and no anchors (`ofText?_of_tokens`).
-/

namespace RegexTree

open Yaml

namespace Document

mutual
/-- The node that presents a document. Only texts are written in a style of their own. -/
def toNode {ref : Type} : Document → Node ref
  | null => .scalar {} .plain "null"
  | flag value => .scalar {} .plain (toString value)
  | number value => .scalar {} .plain value.text
  | text value => .scalar {} (styleOf value.toList) value
  | list items => .sequence {} (toNodes items)
  | record fields => .mapping {} (toEntries fields)

/-- The nodes of items. -/
def toNodes {ref : Type} : List Document → List (Node ref)
  | [] => []
  | d :: ds => toNode d :: toNodes ds

/-- The entries of fields. -/
def toEntries {ref : Type} : List (String × Document) → List (Node ref × Node ref)
  | [] => []
  | (key, d) :: fields => (.scalar {} .plain key, toNode d) :: toEntries fields
end

end Document

namespace Yaml

open Document

variable {handles : Handles} {fuel : Nat} {ts rest : List Token}

/-! ## Nodes from tokens -/

/-- A scalar is a node. -/
theorem readNode_scalar (inBlock isOpen : Bool) (text : String) (style : Style) :
    readNode handles inBlock isOpen (fuel + 1) (.scalar text style :: rest) = some (.scalar {} style text, rest) := by
  rw [readNode]
  · rfl
  · nofun

/-- A list without items is a node. -/
theorem readNode_emptyList (inBlock isOpen : Bool) :
    readNode handles inBlock isOpen (fuel + 2) (.flowSequenceStart :: .flowSequenceEnd :: rest) =
      some (.sequence {} [], rest) := by
  rw [readNode]
  · rfl
  · nofun

/-- A record without fields is a node. -/
theorem readNode_emptyRecord (inBlock isOpen : Bool) :
    readNode handles inBlock isOpen (fuel + 2) (.flowMappingStart :: .flowMappingEnd :: rest) = some (.mapping {} [], rest) := by
  rw [readNode]
  · rfl
  · nofun

/-- The items of a list are a node, where a list may have the column of the mapping around it. -/
theorem readNode_list (inBlock : Bool) :
    readNode handles inBlock true (fuel + 1) (.blockEntry :: ts) =
      (readOpenItems handles fuel (.blockEntry :: ts)).bind fun r => some (.sequence {} r.1, r.2) := by
  rw [readNode]
  · rfl
  · nofun

/-- The fields of a record are a node. -/
theorem readNode_record (isOpen : Bool) :
    readNode handles true isOpen (fuel + 1) (.blockMappingStart :: ts) =
      (readBlockEntries handles fuel ts).bind fun r => some (.mapping {} r.1, r.2) := by
  rw [readNode]
  · cases isOpen <;> rfl
  · nofun

/-- An item and the items behind it are read. -/
theorem readOpenItems_cons {item : Node String} {items : List (Node String)} {ts' : List Token}
    (hb : endsOpenEntry ts = false) (hi : readNode handles true false fuel ts = some (item, ts'))
    (hs : readOpenItems handles fuel ts' = some (items, rest)) :
    readOpenItems handles (fuel + 1) (.blockEntry :: ts) = some (item :: items, rest) := by
  simp [readOpenItems, hb, hi, hs]

/-- A field and the fields behind it are read. -/
theorem readBlockEntries_cons {key : String} {value : Node String} {entries : List (Node String × Node String)}
    {ts' : List Token} (hb : endsBlockPart ts = false) (hv : readNode handles true true (fuel + 1) ts = some (value, ts'))
    (hs : readBlockEntries handles (fuel + 1) ts' = some (entries, rest)) :
    readBlockEntries handles (fuel + 2) (.key :: .scalar key .plain :: .value :: ts) =
      some ((.scalar {} .plain key, value) :: entries, rest) := by
  have hk : endsBlockPart (.scalar key .plain :: .value :: ts) = false := rfl
  rw [readBlockEntries]
  simp [hk, hb, hv, hs, readNode_scalar]

/-- A document does not begin like the end of a part. -/
theorem endsBlockPart_tokens (d : Document) (rest : List Token) : endsBlockPart (d.tokens ++ rest) = false := by
  cases d with
  | list items => cases items <;> rfl
  | record fields => cases fields <;> rfl
  | _ => rfl

mutual
/-- The tokens of a regular document make its node, with twice as much fuel as there are tokens and two more. -/
theorem readNode_tokens (handles : Handles) : (d : Document) → d.Regular → ∀ fuel rest, 2 * d.tokens.length + 2 ≤ fuel →
    rest.head? ≠ some .blockEntry → readNode handles true true fuel (d.tokens ++ rest) = some (d.toNode, rest)
  | .null, _, fuel + 1, _, _, _ | .flag _, _, fuel + 1, _, _, _ | .number _, _, fuel + 1, _, _, _
  | .text _, _, fuel + 1, _, _, _ => readNode_scalar true true _ _
  | .list [], _, fuel + 2, _, _, _ => readNode_emptyList true true
  | .record [], _, fuel + 2, _, _, _ => readNode_emptyRecord true true
  | .list (item :: items), h, fuel + 1, rest, hf, hr => by
    rw [tokens_list (List.cons_ne_nil _ _)] at hf ⊢
    have hi := readOpenItems_tokens handles (item :: items) h fuel rest (by omega) hr
    rw [itemTokens, List.cons_append, List.cons_append] at hi ⊢
    rw [readNode_list, hi]
    rfl
  | .record (f :: fields), h, fuel + 1, rest, hf, _ => by
    rw [tokens_record (List.cons_ne_nil _ _)] at hf ⊢
    simp only [List.length_append, List.length_cons] at hf
    have hs := readBlockEntries_tokens handles (f :: fields) h fuel rest (by omega)
    rw [List.cons_append, List.cons_append, List.append_assoc, List.cons_append, List.nil_append, readNode_record, hs]
    rfl

/-- The tokens of items that are regular records make their nodes. -/
theorem readOpenItems_tokens (handles : Handles) : (items : List Document) → RegularItems items → ∀ fuel rest,
    2 * (itemTokens items).length + 1 ≤ fuel → rest.head? ≠ some .blockEntry →
    readOpenItems handles fuel (itemTokens items ++ rest) = some (toNodes items, rest)
  | [], _, fuel + 1, rest, _, hr => by
    rw [itemTokens, List.nil_append, readOpenItems]
    · rfl
    · rintro ts rfl
      exact hr rfl
  | .record (f :: fields) :: items, h, fuel + 2, rest, hf, hr => by
    have ht := tokens_record (List.cons_ne_nil f fields)
    simp only [itemTokens, ht, List.length_append, List.length_cons] at hf
    have hs := readBlockEntries_tokens handles (f :: fields) h.1.1 fuel (itemTokens items ++ rest) (by omega)
    have hi := readOpenItems_tokens handles items h.2 (fuel + 1) rest (by omega) hr
    simp only [itemTokens, ht, List.cons_append, List.append_assoc, List.nil_append]
    refine readOpenItems_cons rfl ?_ hi
    rw [readNode_record, hs]
    rfl
  | .record [] :: _, h, _, _, _, _ => absurd rfl h.1.2

/-- The tokens of regular fields make their entries, up to the end of the mapping. -/
theorem readBlockEntries_tokens (handles : Handles) : (fields : List (String × Document)) → RegularFields fields →
    ∀ fuel rest, 2 * (fieldTokens fields).length + 1 ≤ fuel →
    readBlockEntries handles fuel (fieldTokens fields ++ .blockEnd :: rest) = some (toEntries fields, rest)
  | [], _, fuel + 1, _, _ => rfl
  | (key, value) :: fields, h, fuel + 2, rest, hf => by
    simp only [fieldTokens, List.length_append, List.length_cons] at hf
    have hr : (fieldTokens fields ++ .blockEnd :: rest).head? ≠ some .blockEntry := by
      cases fields with
      | nil => nofun
      | cons f fields => nofun
    have hv := readNode_tokens handles value h.1.2 (fuel + 1) _ (by omega) hr
    have hs := readBlockEntries_tokens handles fields h.2 (fuel + 1) rest (by omega)
    simp only [fieldTokens, List.cons_append, List.append_assoc]
    exact readBlockEntries_cons (endsBlockPart_tokens value _) hv hs
end

/-- The tokens of a record with fields make its node, as the only document of a stream. -/
theorem readStream_tokens {d : Document} (h : d.Regular) (hf : d.HasFields) {fuel : Nat} (hl : 2 * d.tokens.length + 2 ≤ fuel) :
    readStream fuel (d.tokens ++ [.streamEnd]) = some d.toNode := by
  cases d with
  | record fields =>
    rw [tokens_record hf] at hl ⊢
    obtain ⟨fuel, rfl⟩ : ∃ m, fuel = m + 1 := ⟨fuel - 1, by omega⟩
    simp only [List.length_append, List.length_cons] at hl
    have hs := readBlockEntries_tokens standardHandles fields h fuel [.streamEnd] (by omega)
    simp only [List.cons_append, List.append_assoc, List.nil_append]
    simp only [readStream, readNode_record, hs]
    rfl
  | _ => exact hf.elim

/-! ## Anchors -/

mutual
/-- There are no anchors to number. -/
theorem number_toNode : (d : Document) → (d.toNode : Node String).number [] = some (d.toNode, [])
  | .null | .flag _ | .number _ | .text _ => rfl
  | .list items => by
    simp only [toNode, Node.number, Node.numberMarks, numberItems_toNodes items]
    rfl
  | .record fields => by
    simp only [toNode, Node.number, Node.numberMarks, numberEntries_toEntries fields]
    rfl

/-- There are no anchors to number in items. -/
theorem numberItems_toNodes : (items : List Document) → Node.numberItems (toNodes items) [] = some (toNodes items, [])
  | [] => rfl
  | item :: items => by
    simp only [toNodes, Node.numberItems, Option.bind_eq_bind, Option.bind_some, number_toNode item, numberItems_toNodes items]
    rfl

/-- There are no anchors to number in fields. -/
theorem numberEntries_toEntries : (fields : List (String × Document)) →
    Node.numberEntries (toEntries fields) [] = some (toEntries fields, [])
  | [] => rfl
  | (key, value) :: fields => by
    simp only [toEntries, Node.numberEntries, Node.number, Node.numberMarks, Option.bind_eq_bind, Option.bind_some,
      number_toNode value, numberEntries_toEntries fields]
    rfl
end

mutual
/-- No node of a document is anchored. -/
theorem anchored_toNode : (d : Document) → (d.toNode : Node Nat).anchored = []
  | .null | .flag _ | .number _ | .text _ => rfl
  | .list items => by
    simp only [toNode, Node.anchored, Node.anchorOf, anchoredItems_toNodes items, List.append_nil]
  | .record fields => by
    simp only [toNode, Node.anchored, Node.anchorOf, anchoredEntries_toEntries fields, List.append_nil]

/-- No node of items is anchored. -/
theorem anchoredItems_toNodes : (items : List Document) → Node.anchoredItems (toNodes items) = []
  | [] => rfl
  | item :: items => by
    simp only [toNodes, Node.anchoredItems, anchored_toNode item, anchoredItems_toNodes items, List.append_nil]

/-- No node of fields is anchored. -/
theorem anchoredEntries_toEntries : (fields : List (String × Document)) → Node.anchoredEntries (toEntries fields) = []
  | [] => rfl
  | (key, value) :: fields => by
    simp only [toEntries, Node.anchoredEntries, Node.anchored, Node.anchorOf, anchored_toNode value,
      anchoredEntries_toEntries fields, List.append_nil]
end

/-- A text with the tokens of a record with fields has the node of the record at the root of its tree, and no anchors. -/
theorem ofText?_of_tokens {cs : List Char} {d : Document} (h : d.Regular) (hf : d.HasFields)
    (ht : Token.ofChars? cs = some (d.tokens ++ [.streamEnd])) : Tree.ofText? (String.ofList cs) = some ⟨d.toNode, []⟩ := by
  have hn : Node.ofChars? cs = some d.toNode := by
    rw [Node.ofChars?, ht, Option.bind_eq_bind, Option.bind_some]
    refine readStream_tokens h hf ?_
    rw [List.length_append]
    omega
  simp only [Tree.ofText?, String.toList_ofList, hn, Option.bind_eq_bind, Option.bind_some, number_toNode d, anchored_toNode d]
  rfl

end Yaml

end RegexTree

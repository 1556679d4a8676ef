import Mathlib.Data.Option.Basic
import RegexTree.Document
import RegexTree.Proofs.Span

/-!
# Documents of trees

What the document of a tree is made of: a record is written from the fields that are set, of all the fields it may have
(`fieldsOf`), and the documents of trees are regular, which is what the writers and the readers of both formats rely on:
numbers are counts, the items of lists are records with fields, and fields have one of a few names.
-/

namespace RegexTree

/-! ## Counts -/

/-- A count is written in its digits. -/
theorem Number.Numeral.toList_text (n : Nat) : (Numeral.integer n).text.toList = Nat.toDigits 10 n := by
  have hn : ¬(n : Int) < 0 := by omega
  simp only [text, integerText, if_neg hn, Int.natAbs_natCast, Nat.toList_repr]

/-! ## Documents -/

namespace Document

/-- The fields of a record that are set, of all the fields it may have. -/
def fieldsOf (keyed : List (String × Option Document)) : List (String × Document) := keyed.flatMap fun k => field k.1 k.2

/-- The names that fields of a node, a quantifier, a value object or the properties of a group have. -/
def fieldNames : List String := Draft.keys ++ Quantifier.keys ++ Properties.keys

/-- The document is a record with fields. -/
def HasFields : Document → Prop
  | record fields => fields ≠ []
  | _ => False

mutual
/-- Numbers are counts, items of lists are records with fields, and fields have one of the names of fields. -/
def Regular : Document → Prop
  | number value => ∃ n : Nat, value = .integer n
  | list items => RegularItems items
  | record fields => RegularFields fields
  | _ => True

/-- Every document of a list is regular and a record with fields. -/
def RegularItems : List Document → Prop
  | [] => True
  | d :: ds => (Regular d ∧ d.HasFields) ∧ RegularItems ds

/-- Every field has one of the names of fields and holds a regular document. -/
def RegularFields : List (String × Document) → Prop
  | [] => True
  | (key, d) :: fields => (key ∈ fieldNames ∧ Regular d) ∧ RegularFields fields
end

/-- A document that states something: a count or anything else but null. -/
def IsGiven : Document → Prop
  | null => False
  | number value => ∃ n : Nat, value = .integer n
  | _ => True

/-- A record is regular when the fields that may be set have names of fields and hold regular documents. -/
theorem regular_record {keyed : List (String × Option Document)} (hk : ∀ k ∈ keyed, k.1 ∈ fieldNames)
    (h : ∀ k ∈ keyed, ∀ d ∈ k.2, d.Regular) : (record (fieldsOf keyed)).Regular := by
  have hf : RegularFields (fieldsOf keyed) := by
    induction keyed with
    | nil => trivial
    | cons k keyed ih =>
      have ht := ih (fun k hk' => hk k (List.mem_cons_of_mem _ hk')) fun k hk' => h k (List.mem_cons_of_mem _ hk')
      obtain ⟨key, o⟩ := k
      cases o with
      | none => exact ht
      | some d => exact ⟨⟨hk (key, some d) List.mem_cons_self, h (key, some d) List.mem_cons_self d rfl⟩, ht⟩
  exact hf

/-- A part that may be missing is regular when every such part is. -/
theorem regular_map {α : Type} {f : α → Document} (h : ∀ a, (f a).Regular) (o : Option α) : ∀ d ∈ o.map f, d.Regular := by
  intro d hd
  obtain ⟨a, -, rfl⟩ := Option.map_eq_some_iff.1 hd
  exact h a

/-- A part that is set is regular when the part is. -/
theorem regular_some {d : Document} (h : d.Regular) : ∀ e ∈ some d, e.Regular := by
  intro e he
  rwa [← Option.some.inj he]

/-! ## Parts of nodes -/

/-- A count is regular. -/
theorem regular_count (n : UInt32) : (count n).Regular := ⟨n.toNat, rfl⟩

/-- A text is regular, whether it is there or not. -/
theorem regular_text (o : Option String) : ∀ d ∈ o.map text, d.Regular :=
  regular_map (f := text) (fun _ => trivial) o

/-- The fields of a quantifier. -/
def quantifierFields (q : Quantifier) : List (String × Option Document) :=
  [("Min", q.min.map count), ("Max", q.max.map count), ("Exactly", q.exactly.map count),
    ("Lazy", q.lazy.map flag), ("Greedy", q.greedy.map flag)]

/-- A quantifier is written with its fields. -/
theorem toDocument_quantifier (q : Quantifier) : q.toDocument = record (fieldsOf (quantifierFields q)) := by
  simp [Quantifier.toDocument, quantifierFields, fieldsOf]

/-- The document of a quantifier is regular. -/
theorem regular_quantifier (q : Quantifier) : q.toDocument.Regular := by
  have hc := regular_map regular_count
  have hb := regular_map (f := flag) (fun _ => trivial)
  rw [toDocument_quantifier]
  refine regular_record (by simp [quantifierFields, fieldNames, Quantifier.keys]) ?_
  simp only [quantifierFields, List.forall_mem_cons]
  exact ⟨hc _, hc _, hc _, hb _, hb _, by simp⟩

/-- The fields of the properties of a group. -/
def propertiesFields (p : Properties) : List (String × Option Document) :=
  [("Name", p.name.map text), ("GroupType", some (text p.capture.name)), ("NamedGroupStyle", some (text p.style.name))]

/-- The properties of a group are written with their fields. -/
theorem toDocument_properties (p : Properties) : p.toDocument = record (fieldsOf (propertiesFields p)) := by
  simp [Properties.toDocument, propertiesFields, fieldsOf, field]

/-- The document of properties is regular. -/
theorem regular_properties (p : Properties) : p.toDocument.Regular := by
  rw [toDocument_properties]
  refine regular_record (by simp [propertiesFields, fieldNames, Properties.keys]) ?_
  simp only [propertiesFields, List.forall_mem_cons]
  exact ⟨regular_text _, regular_some trivial, regular_some trivial, by simp⟩

/-- The document of a value is regular. -/
theorem regular_ofValue (v : Value) : (DraftValue.ofValue v).toDocument.Regular := by
  induction v with
  | literal t => trivial
  | nested inner ih => exact ⟨⟨by decide, ih⟩, trivial⟩

/-! ## Nodes -/

/-- The fields of the draft of a leaf. -/
def leafFields (notes : Notes) (kind : LeafKind) (value : Value) : List (String × Option Document) :=
  [("Id", notes.id.map text), ("Type", some (text kind.toNodeType.name)),
    ("Value", some (DraftValue.ofNodeValue value).toDocument), ("Quantifiers", notes.quantifier.map Quantifier.toDocument),
    ("Message", notes.message.map text), ("Properties", none), ("Patterns", none)]

/-- The fields of the draft of a group. -/
def groupFields (notes : Notes) (properties : Properties) (children : List Pattern) : List (String × Option Document) :=
  [("Id", notes.id.map text), ("Type", some (text NodeType.group.name)), ("Value", none),
    ("Quantifiers", notes.quantifier.map Quantifier.toDocument), ("Message", notes.message.map text),
    ("Properties", some properties.toDocument),
    ("Patterns", some (list (Draft.toDocuments (Pattern.toDrafts children))))]

/-- The draft of a leaf is written with the fields of a leaf. -/
theorem toDocument_leaf (notes : Notes) (kind : LeafKind) (value : Value) :
    (Pattern.leaf notes kind value).toDraft.toDocument = record (fieldsOf (leafFields notes kind value)) := by
  simp [Pattern.toDraft, Draft.toDocument, leafFields, fieldsOf, field, DraftValue.ofNodeValue, DraftValue.toField,
    Draft.patternsField]

/-- The draft of a group is written with the fields of a group. -/
theorem toDocument_group (notes : Notes) (properties : Properties) (children : List Pattern) :
    (Pattern.group notes properties children).toDraft.toDocument =
      record (fieldsOf (groupFields notes properties children)) := by
  simp [Pattern.toDraft, Draft.toDocument, groupFields, fieldsOf, field, DraftValue.toField, Draft.patternsField]

/-- The document of a tree is a record with fields. -/
theorem hasFields_toDraft (p : Pattern) : p.toDraft.toDocument.HasFields := by
  cases p with
  | leaf notes kind value => simp [toDocument_leaf, leafFields, fieldsOf, field, HasFields]
  | group notes properties children => simp [toDocument_group, groupFields, fieldsOf, field, HasFields]

mutual
/-- The document of a tree is regular. -/
theorem regular_toDraft : (p : Pattern) → p.toDraft.toDocument.Regular
  | .leaf notes kind value => by
    rw [toDocument_leaf]
    refine regular_record (by simp [leafFields, fieldNames, Draft.keys]) ?_
    simp only [leafFields, List.forall_mem_cons]
    exact ⟨regular_text _, regular_some trivial, regular_some (regular_ofValue (.nested value)),
      regular_map regular_quantifier _, regular_text _, nofun, nofun, by simp⟩
  | .group notes properties children => by
    rw [toDocument_group]
    refine regular_record (by simp [groupFields, fieldNames, Draft.keys]) ?_
    have hc : (list (Draft.toDocuments (Pattern.toDrafts children))).Regular := regular_toDrafts children
    simp only [groupFields, List.forall_mem_cons]
    exact ⟨regular_text _, regular_some trivial, nofun, regular_map regular_quantifier _, regular_text _,
      regular_some (regular_properties properties), regular_some hc, by simp⟩

/-- The documents of trees are regular. -/
theorem regular_toDrafts : (ps : List Pattern) → RegularItems (Draft.toDocuments (Pattern.toDrafts ps))
  | [] => trivial
  | p :: ps => ⟨⟨regular_toDraft p, hasFields_toDraft p⟩, regular_toDrafts ps⟩
end

end Document

end RegexTree

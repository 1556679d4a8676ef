import RegexTree.Draft

/-!
# Documents: what a format writes

A document is a draft laid out as records, lists and scalars, with the keys in the order in which they are written and without
the parts that are not set.
-/

namespace RegexTree

/-- A document. -/
inductive Document where
  | null
  | flag (value : Bool)
  | number (value : Number.Numeral)
  | text (value : String)
  | list (items : List Document)
  | record (fields : List (String × Document))

namespace Document

/-- A field that is written only where it is set. -/
def field (key : String) : Option Document → List (String × Document)
  | some value => [(key, value)]
  | none => []

/-- A count. -/
def count (n : UInt32) : Document := number (.integer n.toNat)

end Document

/-- The keys of a node, in the order in which they are written. -/
def Draft.keys : List String := ["Id", "Type", "Value", "Quantifiers", "Message", "Properties", "Patterns"]

/-- The keys of a quantifier, in the order in which they are written. -/
def Quantifier.keys : List String := ["Min", "Max", "Exactly", "Lazy", "Greedy"]

/-- The keys of the properties of a group, in the order in which they are written. -/
def Properties.keys : List String := ["Name", "GroupType", "NamedGroupStyle"]

open Document

/-- The record of a quantifier. -/
def Quantifier.toDocument (q : Quantifier) : Document :=
  record (field "Min" (q.min.map count) ++ field "Max" (q.max.map count) ++ field "Exactly" (q.exactly.map count) ++
    field "Lazy" (q.lazy.map flag) ++ field "Greedy" (q.greedy.map flag))

/-- The record of the properties of a group. -/
def Properties.toDocument (p : Properties) : Document :=
  record (field "Name" (p.name.map text) ++ [("GroupType", text p.capture.name), ("NamedGroupStyle", text p.style.name)])

/-- The document of a stated value. -/
def DraftValue.toDocument : DraftValue → Document
  | null => .null
  | text value => .text value
  | number value => .number value
  | flag value => .flag value
  | object inner => record [("Value", inner.toDocument)]

/-- The field of a stated value, which nothing leaves out. -/
def DraftValue.toField : DraftValue → List (String × Document)
  | null => []
  | value => [("Value", value.toDocument)]

mutual
/-- The record of a node. -/
def Draft.toDocument : Draft → Document
  | ⟨id, type, value, quantifier, message, properties, patterns⟩ =>
    record (field "Id" (id.map text) ++ field "Type" (type.map text) ++ value.toField ++
      field "Quantifiers" (quantifier.map Quantifier.toDocument) ++ field "Message" (message.map text) ++
      field "Properties" (properties.map Properties.toDocument) ++ Draft.patternsField patterns)

/-- The field of the children. -/
def Draft.patternsField : Option (List Draft) → List (String × Document)
  | none => []
  | some ds => [("Patterns", list (Draft.toDocuments ds))]

/-- The records of a list of nodes. -/
def Draft.toDocuments : List Draft → List Document
  | [] => []
  | d :: ds => d.toDocument :: Draft.toDocuments ds
end

end RegexTree

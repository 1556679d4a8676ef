import RegexTree.Build
import RegexTree.IdSource

/-!
# Drafts: pattern trees as documents state them

A draft has the keys of a document and nothing is checked yet: the kind is any text, parts may be missing, and a value may hold
a number. `Draft.toPattern` checks a draft and gives each node an identifier; `Pattern.toDraft` goes back and needs no check.

A node states its value as an object around a text, and a bare text is short for that. The object at the node is not a level of
its own, each further object is one level of nesting.
-/

namespace RegexTree

/-- A value as a document states it: objects around a text, a number, a flag or nothing. -/
inductive DraftValue where
  | null
  | text (value : String)
  | number (value : Number.Numeral)
  | flag (value : Bool)
  | object (inner : DraftValue)
  deriving DecidableEq

namespace DraftValue

/-- The value inside an object, each further object being one level. Numbers and flags are no values: the text they were
written as is lost. -/
def toValue : DraftValue → Except Cause Value
  | null => .ok (.literal "")
  | text value => .ok (.literal value)
  | number value => .error (.malformed (.numberAsValue value))
  | flag value => .error (.malformed (.flagAsValue value))
  | object inner => inner.toValue.map .nested

/-- The value of a node, where the first object only holds it. -/
def toNodeValue : DraftValue → Except Cause Value
  | object inner => inner.toValue
  | d => d.toValue

/-- What an object around the value holds. -/
def ofValue : Value → DraftValue
  | .literal value => text value
  | .nested inner => object (ofValue inner)

/-- How a node states its value. -/
def ofNodeValue (v : Value) : DraftValue := object (ofValue v)

end DraftValue

/-- A node as a document states it. -/
structure Draft where
  id : Option String := none
  type : Option String := none
  value : DraftValue := .null
  quantifier : Option Quantifier := none
  message : Option String := none
  properties : Option Properties := none
  patterns : Option (List Draft) := none

variable {σ : Type}

namespace Draft

/-- The notes of the node a draft describes, with its identifier. -/
def notesWith (d : Draft) (id : String) : Notes := { id := some id, message := d.message, quantifier := d.quantifier }

/-- The checks of a draft of a leaf: its value is a text, and the text stands for a token. -/
def leafValue (kind : LeafKind) (d : Draft) : Except Cause Value := do
  let value ← d.value.toNodeValue
  let _ ← kind.token value.resolve
  return value

mutual
/-- The pattern a draft describes, where the draft stands at `path`. The checks of a node come before those of its children,
and its identifier is drawn after theirs. Identifiers that a failing draft has drawn stay drawn. -/
def toPattern (ids : IdSource σ) (path : List Nat) : Draft → σ → Except Error Pattern × σ
  | d@⟨id, type, _, _, _, properties, patterns⟩, s =>
    match type with
    | none => (.error ((Cause.malformed .missingType).at { path, id }), s)
    | some name =>
      match NodeType.ofName? name with
      | none => (.error ((Cause.invalidType name).at { path, id }), s)
      | some type =>
        match type.leafKind? with
        | some kind =>
          match d.leafValue kind with
          | .error cause => (.error (cause.at { path, type, id }), s)
          | .ok value =>
            let (id, s) := ids.fill id s
            (.ok (.leaf (d.notesWith id) kind value), s)
        | none =>
          match properties with
          | none => (.error ((Cause.malformed .missingProperties).at { path, type, id }), s)
          | some properties =>
            match toChildren ids path patterns s with
            | (.error e, s) => (.error e, s)
            | (.ok children, s) =>
              let (id, s) := ids.fill id s
              (.ok (.group (d.notesWith id) properties children), s)

/-- The patterns of the children a draft of a group states, none where it states none. -/
def toChildren (ids : IdSource σ) (path : List Nat) : Option (List Draft) → σ → Except Error (List Pattern) × σ
  | none, s => (.ok [], s)
  | some ds, s => toPatternsFrom ids path 0 ds s

/-- The patterns of the drafts that stand below `path`, the first of them as child number `index`. -/
def toPatternsFrom (ids : IdSource σ) (path : List Nat) (index : Nat) : List Draft → σ → Except Error (List Pattern) × σ
  | [], s => (.ok [], s)
  | d :: ds, s =>
    match toPattern ids (path ++ [index]) d s with
    | (.error e, s) => (.error e, s)
    | (.ok p, s) =>
      match toPatternsFrom ids path (index + 1) ds s with
      | (.error e, s) => (.error e, s)
      | (.ok ps, s) => (.ok (p :: ps), s)
end

end Draft

namespace Pattern

mutual
/-- The draft of a tree. -/
def toDraft : Pattern → Draft
  | leaf notes kind value =>
    { id := notes.id, type := some kind.toNodeType.name, value := .ofNodeValue value, quantifier := notes.quantifier,
      message := notes.message }
  | group notes properties children =>
    { id := notes.id, type := some NodeType.group.name, quantifier := notes.quantifier, message := notes.message,
      properties := some properties, patterns := some (toDrafts children) }

/-- The drafts of a list of trees. -/
def toDrafts : List Pattern → List Draft
  | [] => []
  | p :: ps => toDraft p :: toDrafts ps
end

end Pattern

end RegexTree

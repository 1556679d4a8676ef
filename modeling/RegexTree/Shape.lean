import RegexTree.Datum
import RegexTree.Document

/-!
# Reading drafts

A format presents a document as records, lists and scalars; `Shape` collects how. `Draft.read` puts a draft together from any
of them. Fields that no node has are passed over, a field that stands twice is refused, and so is a document whose records and
lists nest more deeply than the levels that are left.
-/

namespace RegexTree

/-- A reading may fail, and it may follow as many references as the state counts. -/
abbrev Reading := StateT Nat Option

/-- How a format presents a document whose parts are of type `α`. -/
structure Shape (α : Type) where
  /-- The part that a part refers to, or the part itself. -/
  resolve : α → Reading α
  /-- The resolved part stands for a record without fields and a list without items, and takes no level. -/
  isBlank : α → Bool
  /-- The fields of a record whose fields have the given names. -/
  fields : List String → α → Reading (List (String × α))
  /-- The items of a list. -/
  items : α → Reading (List α)
  /-- The resolved part, unless it states that there is none. -/
  given : α → Reading (Option α)
  /-- A text. -/
  text : α → Reading String
  /-- A count. -/
  count : α → Reading UInt32
  /-- A flag. -/
  flag : α → Reading Bool
  /-- The name of an alternative, with so many levels left. -/
  choice : Nat → α → Reading String
  /-- A part of any shape, with so many levels left. -/
  datum : Nat → α → Reading Datum

namespace Shape

variable {α β : Type}

/-- The fields of a record, with so many levels left for it. -/
def record (s : Shape α) (names : List String) (levels : Nat) (part : α) : Reading (List (String × α)) := do
  let part ← s.resolve part
  if s.isBlank part then return []
  guard (0 < levels)
  s.fields names part

/-- The items of a list, with so many levels left for it. -/
def list (s : Shape α) (levels : Nat) (part : α) : Reading (List α) := do
  let part ← s.resolve part
  if s.isBlank part then return []
  guard (0 < levels)
  s.items part

/-- The field of a name, which must not stand twice. -/
def single (fields : List (String × α)) (name : String) : Reading (Option α) :=
  match fields.filter (fun f => f.1 == name) with
  | [] => return none
  | [(_, part)] => return some part
  | _ => failure

/-- What an optional field holds. -/
def optional (s : Shape α) (fields : List (String × α)) (name : String) (read : α → Reading β) : Reading (Option β) := do
  let some part ← single fields name | return none
  let some part ← s.given part | return none
  return some (← read part)

/-- What a field of alternatives holds, or what stands for it where it is missing. -/
def alternative (s : Shape α) (fields : List (String × α)) (name : String) (levels : Nat) (ofName? : String → Option β)
    (absent : β) : Reading β := do
  let some part ← single fields name | return absent
  let some value := ofName? (← s.choice levels part) | failure
  return value

/-- A quantifier. -/
def quantifier (s : Shape α) (levels : Nat) (part : α) : Reading Quantifier := do
  let fields ← s.record Quantifier.keys levels part
  let min ← s.optional fields "Min" s.count
  let max ← s.optional fields "Max" s.count
  let exactly ← s.optional fields "Exactly" s.count
  let lazy ← s.optional fields "Lazy" s.flag
  let greedy ← s.optional fields "Greedy" s.flag
  return { min, max, exactly, lazy, greedy }

/-- The properties of a group. -/
def properties (s : Shape α) (levels : Nat) (part : α) : Reading Properties := do
  let fields ← s.record Properties.keys levels part
  let name ← s.optional fields "Name" s.text
  let capture ← s.alternative fields "GroupType" (levels - 1) Capture.ofName? .nonCapturing
  let style ← s.alternative fields "NamedGroupStyle" (levels - 1) NameStyle.ofName? .angleBrackets
  return { name, capture, style }

/-- A value that is not missing. -/
def value (s : Shape α) (levels : Nat) (part : α) : Reading DraftValue := do
  match (← s.datum levels part).toDraftValue? with
  | none | some .null => failure
  | some value => return value

end Shape

namespace Draft

variable {α : Type}

mutual
/-- A draft, with so many levels left for its record. -/
def read (s : Shape α) : (levels : Nat) → α → Reading Draft
  | 0, part => do
    let _ ← s.record keys 0 part
    return {}
  | levels + 1, part => do
    let fields ← s.record keys (levels + 1) part
    let id ← s.optional fields "Id" s.text
    let type ← s.optional fields "Type" s.text
    let value ← s.optional fields "Value" (s.value levels)
    let quantifier ← s.optional fields "Quantifiers" (s.quantifier levels)
    let message ← s.optional fields "Message" s.text
    let properties ← s.optional fields "Properties" (s.properties levels)
    let patterns ← s.optional fields "Patterns" (readList s levels)
    return { id, type, value := value.getD .null, quantifier, message, properties, patterns }

/-- A list of drafts, with so many levels left for it. -/
def readList (s : Shape α) : (levels : Nat) → α → Reading (List Draft)
  | 0, part => do
    let _ ← s.list 0 part
    return []
  | levels + 1, part => do
    let items ← s.list (levels + 1) part
    items.mapM (read s levels)
end

/-- A value object, with so many levels left for it: what its field holds, and nothing where the field is missing. -/
def readValueObject (s : Shape α) (levels : Nat) (part : α) : Reading (Option DraftValue) := do
  let fields ← s.record ["Value"] levels part
  s.optional fields "Value" (s.value (levels - 1))

end Draft

end RegexTree

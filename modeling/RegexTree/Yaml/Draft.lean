import RegexTree.Shape
import RegexTree.Yaml.Node
import RegexTree.Yaml.Plain

/-!
# Drafts in YAML

Records are mappings whose keys are scalars, and a plain scalar of no characters stands for an empty one. A text may be any
scalar, as it is written. Mappings and sequences nest at most 128 levels deep where they are looked into, and at most a hundred
aliases for each part of the text are followed.
-/

namespace RegexTree.Yaml

/-- The levels of nesting that are looked into. -/
def levels : Nat := 128

/-- The tag of a type that every text may use. -/
def coreTag (name : String) : Option String := some ("tag:yaml.org,2002:" ++ name)

/-- The name behind the exclamation mark of a tag that only this text uses. -/
def localName? (tag : Option String) : Option String := do
  match (← tag).toList with
  | ['!'] => some "!"
  | '!' :: name => some (String.ofList name)
  | _ => none

/-- What an alias refers to, which takes one of the aliases that may be followed. -/
def resolve (tree : Tree) : Node Nat → Reading (Node Nat)
  | .reference n => do
    let left ← get
    guard (0 < left)
    set (left - 1)
    let some node := tree.anchors.lookup n | failure
    return node
  | node => return node

/-- The node is a plain scalar of no characters. -/
def isBlank : Node Nat → Bool
  | .scalar _ .plain "" => true
  | _ => false

/-- The text of a scalar. -/
def text (tree : Tree) (node : Node Nat) : Reading String := do
  let .scalar _ _ text ← resolve tree node | failure
  return text

/-- The fields of a mapping. -/
def fields (tree : Tree) (node : Node Nat) : Reading (List (String × Node Nat)) := do
  let .mapping _ entries ← resolve tree node | failure
  entries.mapM fun (key, value) => do return (← text tree key, value)

/-- The items of a sequence. -/
def items (tree : Tree) (node : Node Nat) : Reading (List (Node Nat)) := do
  let .sequence _ items ← resolve tree node | failure
  return items

/-- Whether a scalar states something. A plain one that is tagged as null must state null. -/
def isGiven? (marks : Marks Nat) (style : Style) (text : String) : Option Bool :=
  if style ≠ .plain then some true
  else if marks.tag.isNone then some (text ≠ "" && !isNull text.toList)
  else if marks.tag = coreTag "null" then if isNull text.toList then some false else none
  else some true

/-- The node, unless it states that there is none. -/
def given (tree : Tree) (node : Node Nat) : Reading (Option (Node Nat)) := do
  match ← resolve tree node with
  | node@(.scalar marks style text) =>
    let some isGiven := isGiven? marks style text | failure
    return if isGiven then some node else none
  | node => return some node

/-- The text of a scalar that may state a number or a flag: a plain one, or a literal one with the tag of the type. -/
def typedText (tree : Tree) (type : String) (node : Node Nat) : Reading (List Char) := do
  let .scalar marks style text ← resolve tree node | failure
  guard (style = .plain ∨ (style = .literal ∧ marks.tag = coreTag type))
  return text.toList

/-- A count. -/
def count (tree : Tree) (node : Node Nat) : Reading UInt32 := do
  let some n := natural? (UInt64.size - 1) (← typedText tree "int" node) | failure
  guard (n < UInt32.size)
  return UInt32.ofNat n

/-- A flag. -/
def flag (tree : Tree) (node : Node Nat) : Reading Bool := do
  let some value := flagOf? (← typedText tree "bool" node) | failure
  return value

/-- The scalar states null, where its tag has been read already. -/
def isUnit (style : Style) (text : String) : Bool := style = .plain && (text == "" || isNull text.toList)

/-- The name of an alternative: a text, or a local tag with nothing behind it. -/
def choice (tree : Tree) (node : Node Nat) : Reading String := do
  let .scalar marks style text ← resolve tree node | failure
  match localName? marks.tag with
  | some name =>
    guard (isUnit style text)
    return name
  | none => return text

/-- What a scalar states. The tags of core types are obeyed, others make a text of it. -/
def scalarDatum? (marks : Marks Nat) (style : Style) (text : String) : Option Datum := do
  guard (localName? marks.tag).isNone
  if marks.tag.isNone then
    if style = .plain then plainDatum? text.toList else some (.text text)
  else if marks.tag = coreTag "bool" then (flagOf? text.toList).map .flag
  else if marks.tag = coreTag "int" then (integer? text.toList).join
  else if marks.tag = coreTag "float" then (float? text.toList).map .float
  else if marks.tag = coreTag "null" then if isNull text.toList then some .null else none
  else some (.text text)

/-- What a node states where any shape is allowed, with so many levels left. Local tags are refused. -/
def datum (tree : Tree) : (levels : Nat) → Node Nat → Reading Datum
  | 0, node => do
    let .scalar marks style text ← resolve tree node | failure
    let some d := scalarDatum? marks style text | failure
    return d
  | levels + 1, node => do
    match ← resolve tree node with
    | .scalar marks style text =>
      let some d := scalarDatum? marks style text | failure
      return d
    | .sequence marks items =>
      guard (localName? marks.tag).isNone
      return .list (← items.mapM (datum tree levels))
    | .mapping marks entries =>
      guard (localName? marks.tag).isNone
      return .map (← entries.mapM fun (key, value) => do return (← datum tree levels key, ← datum tree levels value))
    | .reference _ => failure

/-- How YAML presents a document. -/
def shape (tree : Tree) : Shape (Node Nat) where
  resolve := resolve tree
  isBlank := isBlank
  fields _ := fields tree
  items := items tree
  given := given tree
  text := text tree
  count := count tree
  flag := flag tree
  choice _ := choice tree
  datum := datum tree

/-- What a reading gives for a whole text. -/
def parse? {β : Type} (read : Shape (Node Nat) → Nat → Node Nat → Reading β) (text : String) : Option β := do
  let tree ← Tree.ofText? text
  (read (shape tree) levels tree.root).run' (100 * tree.root.size)

end RegexTree.Yaml

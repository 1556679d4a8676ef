import RegexTree.Quantifier
import RegexTree.Symbol
import RegexTree.Text.Blank
import RegexTree.Value

/-!
# Patterns: trees that describe a regex

A leaf is a literal, an anchor or a character class and carries a value; a group carries properties and an ordered list of
children. Every node may also carry an identifier, a message and a quantifier. The type admits any value at any leaf;
`Pattern.Resolved` says that each anchor and each class stands for a token, which is what the constructors in
`RegexTree.Build` check.
-/

namespace RegexTree

/-- The four kinds of node. -/
inductive NodeType where
  | literal | anchor | characterClass | group
  deriving DecidableEq

namespace NodeType

/-- Every kind, in the order messages list them. -/
def all : List NodeType := [literal, anchor, characterClass, group]

/-- The name a configuration uses. -/
def name : NodeType → String
  | literal => "Literal"
  | anchor => "Anchor"
  | characterClass => "CharacterClass"
  | group => "Group"

/-- The kind of a name. -/
def ofName? (name : String) : Option NodeType := all.find? (fun t => t.name == name)

/-- The names, for messages. -/
def names : String := ", ".intercalate (all.map name)

end NodeType

/-- How a group captures. -/
inductive Capture where
  | nonCapturing | capturing | namedCapturing
  deriving DecidableEq

namespace Capture

/-- Every way to capture. -/
def all : List Capture := [nonCapturing, capturing, namedCapturing]

/-- The name a configuration uses. -/
def name : Capture → String
  | nonCapturing => "NonCapturing"
  | capturing => "Capturing"
  | namedCapturing => "NamedCapturing"

/-- The way to capture of a name. -/
def ofName? (name : String) : Option Capture := all.find? (fun c => c.name == name)

end Capture

/-- How the name of a capturing group is written. -/
inductive NameStyle where
  | singleQuote | angleBrackets | pStyle
  deriving DecidableEq

namespace NameStyle

/-- Every style. -/
def all : List NameStyle := [singleQuote, angleBrackets, pStyle]

/-- The name a configuration uses. -/
def name : NameStyle → String
  | singleQuote => "SingleQuote"
  | angleBrackets => "AngleBrackets"
  | pStyle => "PStyle"

/-- The style of a name. -/
def ofName? (name : String) : Option NameStyle := all.find? (fun s => s.name == name)

/-- The text that opens a group of the given name. -/
def opening (s : NameStyle) (groupName : String) : String :=
  match s with
  | singleQuote => "(?'" ++ groupName ++ "'"
  | angleBrackets => "(?<" ++ groupName ++ ">"
  | pStyle => "(?P<" ++ groupName ++ ">"

end NameStyle

/-- What a group states besides its children. -/
structure Properties where
  name : Option String := none
  capture : Capture := .nonCapturing
  style : NameStyle := .angleBrackets
  deriving DecidableEq

namespace Properties

/-- A group that captures nothing. -/
def nonCapturing : Properties := {}

/-- A group that captures by number. -/
def capturing : Properties := { capture := .capturing }

/-- A group that captures by name. -/
def named (name : String) (style : NameStyle) : Properties := { name := some name, capture := .namedCapturing, style := style }

/-- The name, where there is one that is not blank. -/
def groupName? (p : Properties) : Option String := p.name.filter (fun name => !Text.isBlankText name)

/-- The text that opens the group, which a group that captures by name lacks without a name. -/
def opening? (p : Properties) : Option String :=
  match p.capture with
  | .nonCapturing => some "(?:"
  | .capturing => some "("
  | .namedCapturing => p.groupName?.map p.style.opening

end Properties

/-- What any node may carry. -/
structure Notes where
  id : Option String := none
  message : Option String := none
  quantifier : Option Quantifier := none
  deriving DecidableEq

/-- The kinds of leaf. -/
inductive LeafKind where
  | literal | anchor | characterClass
  deriving DecidableEq

/-- The kind of node a leaf of this kind is. -/
def LeafKind.toNodeType : LeafKind → NodeType
  | literal => .literal
  | anchor => .anchor
  | characterClass => .characterClass

/-- The token a value contributes in a leaf of this kind: a literal's text is taken as it stands. -/
def LeafKind.tokenOf? : LeafKind → String → Option String
  | literal, text => some text
  | anchor, text => Anchor.tokenOf? text
  | characterClass, text => CharacterClass.tokenOf? text

/-- A node of a pattern tree. -/
inductive Pattern where
  | leaf (notes : Notes) (kind : LeafKind) (value : Value)
  | group (notes : Notes) (properties : Properties) (children : List Pattern)

namespace Pattern

mutual
/-- Two trees are compared node by node. -/
def decEq : (p q : Pattern) → Decidable (p = q)
  | leaf n k v, leaf n' k' v' =>
    if h : n = n' ∧ k = k' ∧ v = v' then .isTrue (by rw [h.1, h.2.1, h.2.2]) else .isFalse (by grind)
  | group n p cs, group n' p' cs' =>
    match decEqAll cs cs' with
    | .isTrue hc => if h : n = n' ∧ p = p' then .isTrue (by rw [h.1, h.2, hc]) else .isFalse (by grind)
    | .isFalse hc => .isFalse (by grind)
  | leaf .., group .. => .isFalse (by simp)
  | group .., leaf .. => .isFalse (by simp)

/-- Two lists of trees are compared tree by tree. -/
def decEqAll : (ps qs : List Pattern) → Decidable (ps = qs)
  | [], [] => .isTrue rfl
  | p :: ps, q :: qs =>
    match decEq p q, decEqAll ps qs with
    | .isTrue h, .isTrue hs => .isTrue (by rw [h, hs])
    | .isFalse h, _ => .isFalse (by grind)
    | _, .isFalse hs => .isFalse (by grind)
  | [], _ :: _ => .isFalse (by simp)
  | _ :: _, [] => .isFalse (by simp)
end

instance : DecidableEq Pattern := decEq

/-- What the node carries. -/
def notes : Pattern → Notes
  | leaf notes _ _ => notes
  | group notes _ _ => notes

/-- The node with other notes. -/
def withNotes (notes : Notes) : Pattern → Pattern
  | leaf _ kind value => leaf notes kind value
  | group _ properties children => group notes properties children

/-- The identifier. -/
def id (p : Pattern) : Option String := p.notes.id

/-- The message, which no regex depends on. -/
def message (p : Pattern) : Option String := p.notes.message

/-- The quantifier. -/
def quantifier (p : Pattern) : Option Quantifier := p.notes.quantifier

/-- The kind of node. -/
def type : Pattern → NodeType
  | leaf _ kind _ => kind.toNodeType
  | group .. => .group

/-- The value of a leaf. -/
def value? : Pattern → Option Value
  | leaf _ _ value => some value
  | group .. => none

/-- The properties of a group. -/
def properties? : Pattern → Option Properties
  | leaf .. => none
  | group _ properties _ => some properties

/-- The children, of which a leaf has none. -/
def children : Pattern → List Pattern
  | leaf .. => []
  | group _ _ children => children

mutual
/-- The number of nodes. -/
def nodeCount : Pattern → Nat
  | leaf .. => 1
  | group _ _ children => 1 + nodeCountAll children

/-- The number of nodes of a list of trees. -/
def nodeCountAll : List Pattern → Nat
  | [] => 0
  | p :: ps => nodeCount p + nodeCountAll ps
end

mutual
/-- The levels of nesting, of which a leaf has one. -/
def depth : Pattern → Nat
  | leaf .. => 1
  | group _ _ children => 1 + depthAll children

/-- The levels of the deepest tree of a list. -/
def depthAll : List Pattern → Nat
  | [] => 0
  | p :: ps => max (depth p) (depthAll ps)
end

mutual
/-- Every leaf's value stands for a token. -/
def Resolved : Pattern → Prop
  | leaf _ kind value => (kind.tokenOf? value.resolve).isSome
  | group _ _ children => ResolvedAll children

/-- Every leaf of every tree of a list has a value that stands for a token. -/
def ResolvedAll : List Pattern → Prop
  | [] => True
  | p :: ps => Resolved p ∧ ResolvedAll ps
end

end Pattern

end RegexTree

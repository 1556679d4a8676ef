import RegexTree.Codec
import RegexTree.Text.Quoted

/-!
# Compilation reports

A report shows what a compilation went through: the format, the size of the tree, the tree itself on one line and the regex.
-/

namespace RegexTree

/-! ## Trees on one line -/

namespace Dump

/-- A part that may be missing. -/
def option {α : Type} (dump : α → String) : Option α → String
  | none => "None"
  | some a => "Some(" ++ dump a ++ ")"

/-- A name with fields in braces. -/
def record (name : String) (fields : List (String × String)) : String :=
  name ++ " \x7b " ++ ", ".intercalate (fields.map fun f => f.1 ++ ": " ++ f.2) ++ " \x7d"

/-- A name with one part in parentheses. -/
def wrapped (name part : String) : String := name ++ "(" ++ part ++ ")"

/-- A list in brackets. -/
def list (parts : List String) : String := "[" ++ ", ".intercalate parts ++ "]"

/-- A quantifier. -/
def quantifier (q : Quantifier) : String :=
  record "Quantifier"
    [("min", option Quantifier.numeral q.min), ("max", option Quantifier.numeral q.max),
      ("exactly", option Quantifier.numeral q.exactly), ("lazy", option toString q.lazy), ("greedy", option toString q.greedy)]

/-- The properties of a group. -/
def properties (p : Properties) : String :=
  record "PatternProperties"
    [("name", option Text.quoted p.name), ("group_type", p.capture.name), ("named_group_style", p.style.name)]

/-- A value, each level inside the one around it. -/
def value : Value → String
  | .literal text => wrapped "Literal" (Text.quoted text)
  | .nested inner => wrapped "Nested" (value inner)

/-- A node, of which `kind` says what it holds. -/
def node (notes : Notes) (kind : String) : String :=
  record "Pattern"
    [("id", option Text.quoted notes.id), ("message", option Text.quoted notes.message),
      ("quantifiers", option quantifier notes.quantifier), ("kind", kind)]

mutual
/-- A tree. -/
def pattern : Pattern → String
  | .leaf notes kind v => node notes (wrapped kind.toNodeType.name (value v))
  | .group notes p children => node notes (record "Group" [("patterns", list (patterns children)), ("properties", properties p)])

/-- The trees of a list. -/
def patterns : List Pattern → List String
  | [] => []
  | p :: ps => pattern p :: patterns ps
end

end Dump

/-! ## Reports -/

/-- What a compilation went through. -/
structure Report where
  format : Format
  nodeCount : Nat
  depth : Nat
  tree : String
  output : String
  deriving DecidableEq

namespace Report

variable {σ : Type}

/-- The report on a text. -/
def ofText (ids : IdSource σ) (limit : Nat) (text : String) (s : σ) : Except Error Report × σ :=
  match Format.detect text with
  | none => (.error (.malformed .neitherObjectNorMapping), s)
  | some format =>
    match Pattern.decodeAs ids format text s with
    | (.error e, s) => (.error e, s)
    | (.ok p, s) =>
      let report := (p.compile limit).map fun output =>
        { format, nodeCount := p.nodeCount, depth := p.depth, tree := Dump.pattern p, output }
      (report, s)

/-- The report as text. -/
def text (r : Report) : String :=
  "Compilation Report\n==================\nFormat: " ++ r.format.name ++ "\nNodes:  " ++ r.nodeCount.repr ++ "\nDepth:  " ++
    r.depth.repr ++ "\nTree:   " ++ r.tree ++ "\nOutput: " ++ r.output

end Report

end RegexTree

import RegexTree.Build

/-!
# Compiling a tree to a regex

Depth first and from left to right, each node contributes a fragment: a leaf the token of its value, a group its opening, its
children and a closing parenthesis, and any node the suffix of its quantifier. The first failure ends the walk and climbs to the
root. Each node on its way locates it unless it is located already, so it keeps the node where it arose.
-/

namespace RegexTree

/-- The deepest nesting that is accepted where no other limit is given. A lone root has depth one. -/
def defaultDepthLimit : Nat := 128

/-- A fragment with the suffix its quantifier asks for. -/
def quantified (fragment : String) : Option Quantifier → Except Cause String
  | none => .ok fragment
  | some q =>
    match q.suffix fragment with
    | .ok suffix => .ok (fragment ++ suffix)
    | .error range => .error (.invalidRange range.min range.max)

namespace Pattern

/-- The location of a node that stands at `path`. -/
def location (path : List Nat) (p : Pattern) : Location := { path, type := some p.type, id := p.id }

/-- The fragment of a leaf. -/
def leafFragment (notes : Notes) (kind : LeafKind) (value : Value) : Except Cause String := do
  quantified (← kind.token value.resolve) notes.quantifier

mutual
/-- The fragment of the node at `path` and `depth`, which locates a failure that has no location yet. -/
def compileAt (limit : Nat) (path : List Nat) (depth : Nat) : Pattern → Except Error String
  | p@(leaf notes kind value) =>
    Error.locate (p.location path) <|
      if limit < depth then .error (Cause.depthExceeded limit).unlocated
      else (leafFragment notes kind value).mapError Cause.unlocated
  | p@(group notes properties children) =>
    Error.locate (p.location path) <|
      if limit < depth then .error (Cause.depthExceeded limit).unlocated
      else if children.isEmpty then .error Cause.emptyGroup.unlocated
      else
        match properties.opening? with
        | none => .error Cause.missingGroupName.unlocated
        | some opening => do
          let body ← compileFrom limit path (depth + 1) 0 children
          (quantified (opening ++ body ++ ")") notes.quantifier).mapError Cause.unlocated

/-- The fragments of the nodes that stand below `path`, the first of them as child number `index`. -/
def compileFrom (limit : Nat) (path : List Nat) (depth index : Nat) : List Pattern → Except Error String
  | [] => .ok ""
  | p :: ps => do
    let fragment ← compileAt limit (path ++ [index]) depth p
    let rest ← compileFrom limit path depth (index + 1) ps
    return fragment ++ rest
end

/-- The regex of a tree. -/
def compile (limit : Nat) (p : Pattern) : Except Error String := p.compileAt limit [] 1

/-- The regex of a list of trees, one after another. -/
def compileAll (limit : Nat) (ps : List Pattern) : Except Error String := compileFrom limit [] 1 0 ps

end Pattern

end RegexTree

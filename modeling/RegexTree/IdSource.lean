import RegexTree.Pattern

/-!
# Identifiers for nodes that lack one

A source hands out identifiers one after another and may change with each. `Pattern.assignIds` gives every node without an
identifier one of its own, children before their parent.
-/

namespace RegexTree

variable {σ : Type}

/-- A source of identifiers: from its state, the next identifier and the state after it. -/
structure IdSource (σ : Type) where
  next : σ → String × σ

/-- A label and the number of the next identifier. -/
structure Counter where
  label : String := "pattern"
  next : Nat := 1
  deriving DecidableEq

namespace IdSource

/-- Identifiers of a label, a dash and a running number. -/
def counting : IdSource Counter where
  next c := (c.label ++ "-" ++ c.next.repr, { c with next := c.next + 1 })

/-- The same identifier each time. -/
def constant (id : String) : IdSource Unit where
  next s := (id, s)

/-- The first `n` identifiers, and the state after them. -/
def take (ids : IdSource σ) : Nat → σ → List String × σ
  | 0, s => ([], s)
  | n + 1, s =>
    let (id, s) := ids.next s
    let (rest, s) := take ids n s
    (id :: rest, s)

/-- The identifier a node has, or the next one of the source. -/
def fill (ids : IdSource σ) (id : Option String) (s : σ) : String × σ :=
  match id with
  | some id => (id, s)
  | none => ids.next s

end IdSource

namespace Pattern

mutual
/-- The tree in which every node without an identifier has the next one of the source, children before their parent. -/
def assignIds (ids : IdSource σ) : Pattern → σ → Pattern × σ
  | leaf notes kind value, s =>
    let (id, s) := ids.fill notes.id s
    (leaf { notes with id := some id } kind value, s)
  | group notes properties children, s =>
    let (children, s) := assignIdsAll ids children s
    let (id, s) := ids.fill notes.id s
    (group { notes with id := some id } properties children, s)

/-- The list of trees with identifiers, from the first tree to the last. -/
def assignIdsAll (ids : IdSource σ) : List Pattern → σ → List Pattern × σ
  | [], s => ([], s)
  | p :: ps, s =>
    let (p, s) := assignIds ids p s
    let (ps, s) := assignIdsAll ids ps s
    (p :: ps, s)
end

end Pattern

end RegexTree

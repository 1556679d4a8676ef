import RegexTree.Proofs.Moved
import RegexTree.Proofs.Violations

/-!
# Trees with a node replaced

A tree depends on each of its subtrees through what the subtree compiles to, and through nothing else. Whatever stands around a node,
in front of it, behind it or above it with its quantifiers, another node in its place that compiles alike changes neither the regex nor
the failure of the tree (`compile_replaceAt`).
-/

namespace RegexTree

/-- The tree with another node at a path, or the same tree where the path leads to no node. -/
def Pattern.replaceAt : Pattern → List Nat → Pattern → Pattern
  | _, [], other => other
  | leaf notes kind value, _ :: _, _ => leaf notes kind value
  | group notes properties children, i :: path, other =>
    group notes properties (children.modify i fun child => child.replaceAt path other)

namespace ReplacedAux

open Pattern MovedAux

/-! ## Places -/

/-- Only a group has a node below it. -/
theorem group_of_at? {p node : Pattern} {i : Nat} {path : List Nat} (h : p.at? (i :: path) = some node) :
    ∃ notes properties children child, p = group notes properties children ∧ children[i]? = some child ∧
      child.at? path = some node := by
  obtain ⟨child, hc, hn⟩ := Option.bind_eq_some_iff.1 h
  cases p with
  | leaf notes kind value => cases hc
  | group notes properties children => exact ⟨notes, properties, children, child, rfl, hc, hn⟩

/-- The other node stands where the node stood. -/
theorem at?_replaceAt (other : Pattern) {path : List Nat} {p node : Pattern} (h : p.at? path = some node) :
    (p.replaceAt path other).at? path = some other := by
  induction path generalizing p with
  | nil => rfl
  | cons i path ih =>
    obtain ⟨notes, properties, children, child, rfl, hc, hn⟩ := group_of_at? h
    have hm : (children.modify i fun child => child.replaceAt path other)[i]? = some (child.replaceAt path other) := by
      rw [List.getElem?_modify_eq, hc]
      rfl
    rw [replaceAt, at?, Pattern.children, hm]
    exact ih hn

/-! ## The walk over the tree -/

/-- Children of whom one is exchanged for another that compiles alike in its place compile alike. -/
theorem compileFrom_modify {limit depth : Nat} {path : List Nat} {f : Pattern → Pattern} {children : List Pattern} {i index : Nat}
    {child : Pattern} (hi : children[i]? = some child)
    (h : (f child).compileAt limit (path ++ [index + i]) depth = child.compileAt limit (path ++ [index + i]) depth) :
    compileFrom limit path depth index (children.modify i f) = compileFrom limit path depth index children := by
  induction children generalizing i index with
  | nil => cases hi
  | cons p ps ih =>
    cases i with
    | zero =>
      cases hi
      rw [List.modify_zero_cons, compileFrom, compileFrom]
      rw [Nat.add_zero] at h
      rw [h]
    | succ i =>
      rw [← Nat.add_assoc, Nat.add_right_comm] at h
      rw [List.modify_succ_cons, compileFrom, compileFrom, ih hi h]

/-- A node that compiles alike in the place of another changes nothing for the tree, wherever the tree stands. -/
theorem compileAt_replaceAt {limit : Nat} {other node : Pattern} {path : List Nat} : ∀ {p : Pattern} {above : List Nat} {depth : Nat},
    p.at? path = some node →
      other.compileAt limit (above ++ path) (depth + path.length) = node.compileAt limit (above ++ path) (depth + path.length) →
        (p.replaceAt path other).compileAt limit above depth = p.compileAt limit above depth := by
  -- On the path: a step leads from a group to one of its children, one place further and one level down.
  induction path with
  | nil =>
    intro p above depth hp h
    cases hp
    rw [List.append_nil] at h
    exact h
  | cons i path ih =>
    intro p above depth hp h
    obtain ⟨notes, properties, children, child, rfl, hc, hn⟩ := group_of_at? hp
    rw [List.length_cons, Nat.add_comm path.length, ← Nat.add_assoc, List.append_cons] at h
    have hchild := ih hn h
    have hbody : compileFrom limit above (depth + 1) 0 (children.modify i fun child => child.replaceAt path other) =
        compileFrom limit above (depth + 1) 0 children := by
      refine compileFrom_modify hc ?_
      rw [Nat.zero_add]
      exact hchild
    have hempty : (children.modify i fun child => child.replaceAt path other).isEmpty = children.isEmpty := by
      rw [Bool.eq_iff_iff, List.isEmpty_iff, List.isEmpty_iff, List.modify_eq_nil_iff]
    rw [replaceAt, compileAt, compileAt, hbody, hempty]
    rfl

/-- A tree below a path compiles alike with another where it does so alone, under a limit that is lower by the length of the path. -/
theorem compileAt_eq_of_compile_eq {limit : Nat} {path : List Nat} {p q : Pattern} (hl : path.length ≤ limit)
    (h : p.compile (limit - path.length) = q.compile (limit - path.length)) :
    p.compileAt limit path (1 + path.length) = q.compileAt limit path (1 + path.length) := by
  have hmoved (r : Pattern) : r.compileAt limit path (1 + path.length) =
      (r.compile (limit - path.length)).mapError (Error.moved path path.length) := by
    have hr := compileAt_moved (limit - path.length) path.length path [] 1 r
    rwa [List.append_nil, Nat.sub_add_cancel hl] at hr
  rw [hmoved, hmoved, h]

end ReplacedAux

namespace Pattern

open ReplacedAux

/-- A node of a tree is replaced by another. If both compile alike by themselves, under a limit that is lower by as many levels as
stand above the node, for example to the same regex, then the tree compiles as before: to the same regex, or it fails for the same
cause at the same node. -/
theorem compile_replaceAt {limit : Nat} {path : List Nat} {p node : Pattern} (hl : path.length < limit)
    (hp : p.at? path = some node) (other : Pattern)
    (h : other.compile (limit - path.length) = node.compile (limit - path.length)) :
    (p.replaceAt path other).at? path = some other ∧ (p.replaceAt path other).compile limit = p.compile limit :=
  ⟨at?_replaceAt other hp, compileAt_replaceAt hp (compileAt_eq_of_compile_eq (Nat.le_of_lt hl) h)⟩

/-- A literal that stands below a group with a quantifier, two levels below the root, is replaced by a group that captures nothing and
compiles to the same text. The regex of the tree stays, and so does its failure where the quantifier of a node behind is wrong. -/
theorem compile_replaceAt_of_group :
    let literal (text : String) : Pattern := .leaf {} .literal (.literal text)
    let tree (last : Quantifier) (inner : Pattern) : Pattern := .group { id := some "root" } .capturing
      [literal "a", .group { quantifier := some { lazy := some true, min := some 1 } } {} [inner],
        .leaf { id := some "last", quantifier := some last } .literal (.literal "b")]
    let node := literal "(?:x|y)"
    let other : Pattern := .group { id := some "new" } {} [literal "x|", literal "y"]
    let failure : Error := (Cause.invalidRange 3 2).at { path := [2], type := some .literal, id := some "last" }
    [1, 0].length < 4 ∧ (∀ last, (tree last node).at? [1, 0] = some node) ∧ node.compile (4 - 2) = .ok "(?:x|y)" ∧
      other.compile (4 - 2) = .ok "(?:x|y)" ∧ (∀ last, (tree last node).replaceAt [1, 0] other = tree last other) ∧
      (tree { min := some 0 } other).compile 4 = .ok "(a(?:(?:x|y))+?b*)" ∧
      (tree { min := some 3, max := some 2 } other).compile 4 = .error failure := by
  intro literal tree node other failure
  have hl : [1, 0].length < 4 := by decide
  have hn : node.compile (4 - 2) = .ok "(?:x|y)" := rfl
  have ho : other.compile (4 - 2) = .ok "(?:x|y)" := rfl
  have hp (last : Quantifier) : (tree last node).at? [1, 0] = some node := rfl
  have hreplaced (last : Quantifier) := (compile_replaceAt hl (hp last) other (ho.trans hn.symm)).2
  have hregex : (tree { min := some 0 } node).compile 4 = .ok "(a(?:(?:x|y))+?b*)" := rfl
  have hfailure : (tree { min := some 3, max := some 2 } node).compile 4 = .error failure := rfl
  exact ⟨hl, hp, hn, ho, fun _ => rfl, (hreplaced _).trans hregex, (hreplaced _).trans hfailure⟩

end Pattern

end RegexTree

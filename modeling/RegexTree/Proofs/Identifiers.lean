import Mathlib.Data.List.Nodup
import Mathlib.Data.List.ReduceOption
import RegexTree.Proofs.Convert
import RegexTree.Proofs.Moved

/-!
# Identifiers, filled in

Children before their parent, the identifiers of a tree are a list with gaps, and assigning identifiers fills the gaps of this list
from the first to the last, whatever the shape of the tree. Nothing else of the tree changes, and its regex does not depend on
identifiers at all. A label with a running number never gives an identifier twice, so that identifiers which are distinct before
are distinct after, unless one of them is such a number behind the label (`assignIds_fills_gaps`).
-/

namespace RegexTree

variable {σ : Type}

/-- The identifiers of a list with gaps, where each gap has the next one of the source. -/
def IdSource.fillAll (ids : IdSource σ) : List (Option String) → σ → List String × σ
  | [], s => ([], s)
  | given :: rest, s =>
    let (id, s) := ids.fill given s
    let (filled, s) := fillAll ids rest s
    (id :: filled, s)

/-- The failure without the identifier of the node it is located at. -/
def Error.anonymous (e : Error) : Error := { e with location := e.location.map fun l => { l with id := none } }

namespace Pattern

mutual
/-- The identifiers of the nodes, with a gap for each node that lacks one, children before their parent. -/
def identifiers : Pattern → List (Option String)
  | leaf notes _ _ => [notes.id]
  | group notes _ children => identifiersAll children ++ [notes.id]

/-- The identifiers of a list of trees, one tree after another. -/
def identifiersAll : List Pattern → List (Option String)
  | [] => []
  | p :: ps => identifiers p ++ identifiersAll ps
end

/-- The number of nodes without an identifier. -/
def missing (p : Pattern) : Nat := p.identifiers.count none

mutual
/-- The tree without its identifiers. -/
def anonymous : Pattern → Pattern
  | leaf notes kind value => leaf { notes with id := none } kind value
  | group notes properties children => group { notes with id := none } properties (anonymousAll children)

/-- The trees of a list without their identifiers. -/
def anonymousAll : List Pattern → List Pattern
  | [] => []
  | p :: ps => anonymous p :: anonymousAll ps
end

end Pattern

namespace IdentifiersAux

open Pattern MovedAux

/-! ## Filling the gaps of a list -/

/-- Two lists are filled one after the other. -/
theorem fillAll_append (ids : IdSource σ) (os os' : List (Option String)) (s : σ) :
    ids.fillAll (os ++ os') s =
      ((ids.fillAll os s).1 ++ (ids.fillAll os' (ids.fillAll os s).2).1, (ids.fillAll os' (ids.fillAll os s).2).2) := by
  induction os generalizing s with
  | nil => rfl
  | cons o os ih =>
    simp only [List.cons_append, IdSource.fillAll, ih]

/-- Each gap takes one identifier of the source. -/
theorem fillAll_state (ids : IdSource σ) (os : List (Option String)) (s : σ) :
    (ids.fillAll os s).2 = (ids.take (os.count none) s).2 := by
  induction os generalizing s with
  | nil => rfl
  | cons o os ih =>
    cases o with
    | some id =>
      rw [List.count_cons_of_ne (by simp)]
      exact ih s
    | none =>
      rw [List.count_cons_self]
      exact ih (ids.next s).2

/-- An identifier that stands in the list stays at its place. -/
theorem fillAll_given (ids : IdSource σ) {os : List (Option String)} (s : σ) {n : Nat} {id : String}
    (h : os[n]? = some (some id)) : (ids.fillAll os s).1[n]? = some id := by
  induction os generalizing s n with
  | nil => cases h
  | cons o os ih =>
    cases n with
    | zero =>
      cases h
      rfl
    | succ n => exact ih (ids.fill o s).2 h

/-- The gap that has so many gaps in front of it has the identifier that the source gives after so many others. -/
theorem fillAll_gap (ids : IdSource σ) {os : List (Option String)} (s : σ) {n : Nat} (h : os[n]? = some none) :
    ∃ id, (ids.take (os.count none) s).1[(os.take n).count none]? = some id ∧ (ids.fillAll os s).1[n]? = some id := by
  induction os generalizing s n with
  | nil => cases h
  | cons o os ih =>
    cases n with
    | zero =>
      cases h
      exact ⟨(ids.next s).1, by rw [List.count_cons_self]; rfl, rfl⟩
    | succ n =>
      obtain ⟨id, hd, hf⟩ := ih (ids.fill o s).2 h
      refine ⟨id, ?_, hf⟩
      cases o with
      | some given =>
        rw [List.take_succ_cons, List.count_cons_of_ne (by simp), List.count_cons_of_ne (by simp)]
        exact hd
      | none =>
        rw [List.take_succ_cons, List.count_cons_self, List.count_cons_self]
        exact hd

/-- A filled list holds what stood in it and what was drawn. -/
theorem fillAll_perm (ids : IdSource σ) (os : List (Option String)) (s : σ) :
    (ids.fillAll os s).1.Perm (os.reduceOption ++ (ids.take (os.count none) s).1) := by
  induction os generalizing s with
  | nil => exact List.Perm.refl _
  | cons o os ih =>
    cases o with
    | some given =>
      rw [List.count_cons_of_ne (by simp)]
      exact (ih s).cons given
    | none =>
      rw [List.count_cons_self]
      exact ((ih (ids.next s).2).cons (ids.next s).1).trans List.perm_middle.symm

/-! ## Filling the gaps of a tree -/

mutual
/-- Assigning identifiers to a tree fills the list of its identifiers. -/
theorem identifiers_assignIds (ids : IdSource σ) : (p : Pattern) → (s : σ) →
    (p.assignIds ids s).1.identifiers = (ids.fillAll p.identifiers s).1.map some ∧
      (p.assignIds ids s).2 = (ids.fillAll p.identifiers s).2
  | leaf notes kind value, s => ⟨rfl, rfl⟩
  | group notes properties children, s => by
    obtain ⟨hi, hs⟩ := identifiersAll_assignIds ids children s
    rw [identifiers, fillAll_append, ← hs, List.map_append, ← hi]
    exact ⟨rfl, rfl⟩

/-- The same for a list of trees. -/
theorem identifiersAll_assignIds (ids : IdSource σ) : (ps : List Pattern) → (s : σ) →
    identifiersAll (assignIdsAll ids ps s).1 = (ids.fillAll (identifiersAll ps) s).1.map some ∧
      (assignIdsAll ids ps s).2 = (ids.fillAll (identifiersAll ps) s).2
  | [], s => ⟨rfl, rfl⟩
  | p :: ps, s => by
    obtain ⟨hi, hs⟩ := identifiers_assignIds ids p s
    obtain ⟨his, hss⟩ := identifiersAll_assignIds ids ps (p.assignIds ids s).2
    rw [identifiersAll, fillAll_append, ← hs, List.map_append, ← hi, ← his, ← hss]
    exact ⟨rfl, rfl⟩
end

mutual
/-- Assigning identifiers changes nothing but identifiers. -/
theorem anonymous_assignIds (ids : IdSource σ) : (p : Pattern) → (s : σ) → (p.assignIds ids s).1.anonymous = p.anonymous
  | leaf .., _ => rfl
  | group notes properties children, s =>
    congrArg (group { notes with id := none } properties) (anonymousAll_assignIds ids children s)

/-- The same for a list of trees. -/
theorem anonymousAll_assignIds (ids : IdSource σ) : (ps : List Pattern) → (s : σ) →
    anonymousAll (assignIdsAll ids ps s).1 = anonymousAll ps
  | [], _ => rfl
  | p :: ps, s => by
    rw [assignIdsAll, anonymousAll, anonymousAll, anonymous_assignIds ids p, anonymousAll_assignIds ids ps]
end

/-! ## Compiling without identifiers -/

/-- A node without its identifier locates the same failures without an identifier. -/
theorem locate_anonymous (path : List Nat) (p : Pattern) (outcome : Except Error String) :
    Error.locate { path, type := some p.type } (outcome.mapError Error.anonymous) =
      (Error.locate (p.location path) outcome).mapError Error.anonymous := by
  cases outcome with
  | ok regex => rfl
  | error e =>
    obtain ⟨cause, location⟩ := e
    cases location <;> rfl

/-- What a node does by itself tells no identifier. -/
theorem unlocated_anonymous (step : Except Cause String) :
    step.mapError Cause.unlocated = (step.mapError Cause.unlocated).mapError Error.anonymous := by
  cases step <;> rfl

/-- A group has no children without their identifiers where it has none with them. -/
theorem isEmpty_anonymousAll (ps : List Pattern) : (anonymousAll ps).isEmpty = ps.isEmpty := by
  cases ps <;> rfl

mutual
/-- Without its identifiers a tree compiles as it does with them, and a failure tells no identifier. -/
theorem compileAt_anonymous (limit : Nat) (path : List Nat) (depth : Nat) : (p : Pattern) →
    p.anonymous.compileAt limit path depth = (p.compileAt limit path depth).mapError Error.anonymous
  | leaf notes kind value => by
    rw [anonymous, compileAt, compileAt, ← locate_anonymous]
    by_cases hd : limit < depth
    · rw [if_pos hd, if_pos hd]
      rfl
    · rw [if_neg hd, if_neg hd, ← unlocated_anonymous]
      rfl
  | group notes properties children => by
    rw [anonymous, compileAt, compileAt, ← locate_anonymous, isEmpty_anonymousAll]
    by_cases hd : limit < depth
    · rw [if_pos hd, if_pos hd]
      rfl
    · rw [if_neg hd, if_neg hd]
      by_cases he : children.isEmpty
      · rw [if_pos he, if_pos he]
        rfl
      · rw [if_neg he, if_neg he]
        cases properties.opening? with
        | none => rfl
        | some opening =>
          simp only
          rw [← mapError_bind, compileFrom_anonymous limit path (depth + 1) 0 children]
          congr 2
          funext body
          exact unlocated_anonymous _

/-- The same for the trees below a node. -/
theorem compileFrom_anonymous (limit : Nat) (path : List Nat) (depth index : Nat) : (ps : List Pattern) →
    compileFrom limit path depth index (anonymousAll ps) = (compileFrom limit path depth index ps).mapError Error.anonymous
  | [] => rfl
  | p :: ps => by
    rw [anonymousAll, compileFrom, compileFrom, ← mapError_bind, compileAt_anonymous limit (path ++ [index]) depth p]
    congr 1
    funext fragment
    rw [← mapError_bind, compileFrom_anonymous limit path depth (index + 1) ps]
    rfl
end

/-! ## Running numbers -/

/-- The last dash of a text shows where the numeral behind it begins. -/
theorem append_dash_inj {l l' ds ds' : List Char} (hd : '-' ∉ ds) (hd' : '-' ∉ ds') (h : l ++ '-' :: ds = l' ++ '-' :: ds') :
    l = l' ∧ ds = ds' := by
  have hdash (ls : List Char) : ∀ c ∈ ('-' :: ls).head?, (c != '-') = false := by simp
  have hrev : ds.reverse ++ '-' :: l.reverse = ds'.reverse ++ '-' :: l'.reverse := by
    simpa using congrArg List.reverse h
  obtain ⟨hds, hl⟩ := Span.append_inj (Span.bne_of_notMem (mt List.mem_reverse.1 hd))
    (Span.bne_of_notMem (mt List.mem_reverse.1 hd')) (hdash l.reverse) (hdash l'.reverse) hrev
  rw [List.cons_inj_right] at hl
  exact ⟨List.reverse_injective hl, List.reverse_injective hds⟩

/-- An identifier with a running number tells the label and the number. -/
theorem counting_injective {c c' : Counter} (h : (IdSource.counting.next c).1 = (IdSource.counting.next c').1) : c = c' := by
  have hcs : c.label.toList ++ '-' :: Nat.toDigits 10 c.next = c'.label.toList ++ '-' :: Nat.toDigits 10 c'.next := by
    simpa [IdSource.counting, Nat.repr] using congrArg String.toList h
  obtain ⟨hl, hn⟩ := append_dash_inj (notMem_toDigits rfl c.next) (notMem_toDigits rfl c'.next) hcs
  obtain ⟨label, next⟩ := c
  obtain ⟨label', next'⟩ := c'
  rw [Counter.mk.injEq]
  exact ⟨String.toList_inj.1 hl, toDigits_injective hn⟩

/-- The identifiers with running numbers, as far as a number. -/
theorem take_counting (n : Nat) (c : Counter) :
    (IdSource.counting.take n c).1 = (List.range' c.next n).map fun k => (IdSource.counting.next { c with next := k }).1 := by
  induction n generalizing c with
  | zero => rfl
  | succ n ih =>
    rw [List.range'_succ, List.map_cons, ← ih { c with next := c.next + 1 }]
    rfl

/-- No running number comes twice. -/
theorem nodup_counting (n : Nat) (c : Counter) : (IdSource.counting.take n c).1.Nodup := by
  rw [take_counting]
  refine List.Nodup.map ?_ List.nodup_range'
  intro k k' h
  exact congrArg Counter.next (counting_injective h)

/-- Identifiers that are distinct, none of them a running number to come, are distinct when running numbers fill the gaps. -/
theorem nodup_fillAll_counting {os : List (Option String)} {c : Counter} (hos : os.reduceOption.Nodup)
    (hfresh : ∀ k, c.next ≤ k → k < c.next + os.count none → c.label ++ "-" ++ k.repr ∉ os.reduceOption) :
    (IdSource.counting.fillAll os c).1.Nodup := by
  rw [(fillAll_perm _ os c).nodup_iff, List.nodup_append']
  refine ⟨hos, nodup_counting _ c, ?_⟩
  intro id hgiven hdrawn
  rw [take_counting] at hdrawn
  obtain ⟨k, hk, rfl⟩ := List.mem_map.1 hdrawn
  obtain ⟨hl, hu⟩ := List.mem_range'_1.1 hk
  exact hfresh k hl hu hgiven

end IdentifiersAux

namespace Pattern

open IdentifiersAux

/-- Assigning identifiers draws one for each node that lacks one and no more. In the order in which children come before their parent
a node that has an identifier keeps it, and a node that lacks one gets the identifier that the source gives after those for the gaps
in front of it. Nothing else of the tree changes: assigning identifiers again, from any source, changes nothing and draws nothing, and
the tree compiles to the same regex as before, or fails for the same cause at the same path and kind of node. Running numbers behind a
label are distinct, and an identifier tells its label and its number. If the identifiers of a tree are distinct and none of them is a
number that is drawn behind its label, then all identifiers are distinct afterwards. -/
theorem assignIds_fills_gaps (ids : IdSource σ) (p : Pattern) (s : σ) :
    let q := (p.assignIds ids s).1
    let drawn := (ids.take p.missing s).1
    (p.assignIds ids s).2 = (ids.take p.missing s).2 ∧
      (∀ (n : Nat) (id : String), p.identifiers[n]? = some (some id) → q.identifiers[n]? = some (some id)) ∧
      (∀ n : Nat, p.identifiers[n]? = some none →
        ∃ id, drawn[(p.identifiers.take n).count none]? = some id ∧ q.identifiers[n]? = some (some id)) ∧
      q.anonymous = p.anonymous ∧
      (∀ {τ : Type} (ids' : IdSource τ) (t : τ), q.assignIds ids' t = (q, t)) ∧
      (∀ limit, (q.compile limit).mapError Error.anonymous = (p.compile limit).mapError Error.anonymous) ∧
      (∀ n c, (IdSource.counting.take n c).1.Nodup) ∧
      (∀ c c', (IdSource.counting.next c).1 = (IdSource.counting.next c').1 → c = c') ∧
      ∀ c : Counter, p.identifiers.reduceOption.Nodup →
        (∀ k, c.next ≤ k → k < c.next + p.missing → c.label ++ "-" ++ k.repr ∉ p.identifiers.reduceOption) →
          (p.assignIds .counting c).1.identifiers.Nodup := by
  intro q drawn
  obtain ⟨hi, hs⟩ := identifiers_assignIds ids p s
  have ha : q.anonymous = p.anonymous := anonymous_assignIds ids p s
  refine ⟨?_, ?_, ?_, ha, ?_, ?_, nodup_counting, fun c c' => counting_injective, ?_⟩
  · rw [hs]
    exact fillAll_state ids p.identifiers s
  · intro n id hn
    rw [hi, List.getElem?_map, fillAll_given ids s hn]
    rfl
  · intro n hn
    obtain ⟨id, hd, hf⟩ := fillAll_gap ids s hn
    refine ⟨id, hd, ?_⟩
    rw [hi, List.getElem?_map, hf]
    rfl
  · intro τ ids' t
    exact assignIds_of_identified ids' t q (identified_assignIds ids p s)
  · intro limit
    rw [compile, compile, ← compileAt_anonymous, ← compileAt_anonymous, ha]
  · intro c hos hfresh
    rw [(identifiers_assignIds .counting p c).1]
    exact (nodup_fillAll_counting hos hfresh).map fun id id' => Option.some.inj

/-- A group and its second child lack identifiers, the first child has one. The label itself ends in a dash and a numeral: the child
gets the first number behind it and the group the second. -/
theorem assignIds_fills_gaps_of_two :
    let tree (group first second : Option String) : Pattern := .group { id := group } {}
      [.leaf { id := first } .literal (.literal "a"), .leaf { id := second, message := some "b" } .literal (.literal "b")]
    let p := tree none (some "p-1") none
    let q := tree (some "p-1-2") (some "p-1") (some "p-1-1")
    p.assignIds .counting { label := "p-1" } = (q, { label := "p-1", next := 3 }) ∧ p.missing = 2 ∧
      p.identifiers[0]? = some (some "p-1") ∧ q.identifiers[0]? = some (some "p-1") ∧ p.identifiers[2]? = some none ∧
      (∃ id, (IdSource.counting.take 2 { label := "p-1" }).1[1]? = some id ∧ q.identifiers[2]? = some (some id)) ∧
      q.assignIds (.constant "x") () = (q, ()) ∧ p.identifiers.reduceOption = ["p-1"] ∧
      (∀ k, 1 ≤ k → k < 1 + 2 → "p-1" ++ "-" ++ k.repr ∉ ["p-1"]) ∧ q.identifiers.Nodup := by
  intro tree p q
  have hq : p.assignIds .counting { label := "p-1" } = (q, { label := "p-1", next := 3 }) := rfl
  have hfresh : ∀ k, 1 ≤ k → k < 1 + 2 → "p-1" ++ "-" ++ k.repr ∉ ["p-1"] := by
    intro k hl hu
    obtain rfl | rfl : k = 1 ∨ k = 2 := by omega
    · decide
    · decide
  obtain ⟨-, hgiven, hgap, -, hagain, -, -, -, hnodup⟩ := assignIds_fills_gaps .counting p { label := "p-1" }
  exact ⟨hq, rfl, rfl, hgiven 0 "p-1" rfl, rfl, hgap 2 rfl, hagain (.constant "x") (), rfl, hfresh,
    hnodup { label := "p-1" } (List.nodup_singleton _) hfresh⟩

end Pattern

end RegexTree

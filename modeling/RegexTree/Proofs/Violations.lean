import RegexTree.Compile
import RegexTree.Proofs.Resolved

/-!
# What keeps a tree from compiling

`Pattern.violations` lists everything that is wrong with a tree, in the order in which a walk from the root meets it: the checks
of a group before its children, its quantifier after them. A tree compiles when the list is empty; otherwise compilation fails
with the first violation, located at the node it belongs to (`compile_reports_first_violation`).
-/

namespace RegexTree

/-- The range of a quantifier whose maximum is below its minimum, unless a positive exact count stands before the two. -/
def Quantifier.inverted? (q : Quantifier) : Option Quantifier.BadRange :=
  match q.min, q.max with
  | some min, some max => if max < min ∧ !q.exactly.any (0 < ·) then some ⟨min, max⟩ else none
  | _, _ => none

/-- A group that captures by name and has none, or a blank one. -/
def Properties.lacksName (p : Properties) : Bool := p.capture == .namedCapturing && p.name.all Text.isBlankText

namespace Pattern

/-- The node that a path of child indices leads to. -/
def at? : List Nat → Pattern → Option Pattern
  | [], p => some p
  | i :: path, p => p.children[i]?.bind (at? path)

/-- Something wrong with a tree: the path to a node, the node and what is wrong there. -/
structure Violation where
  path : List Nat
  node : Pattern
  cause : Cause

/-- The violation of the quantifier of a node that stands at `path`. -/
def rangeViolations (path : List Nat) (p : Pattern) : List Violation :=
  match p.quantifier.bind Quantifier.inverted? with
  | some range => [⟨path, p, .invalidRange range.min range.max⟩]
  | none => []

mutual
/-- The violations of a tree whose root stands at `path` and `depth`. Below a node that stands too deep none is looked for. -/
def violationsAt (limit : Nat) (path : List Nat) (depth : Nat) : Pattern → List Violation
  | p@(leaf ..) => if limit < depth then [⟨path, p, .depthExceeded limit⟩] else rangeViolations path p
  | p@(group _ properties children) =>
    if limit < depth then [⟨path, p, .depthExceeded limit⟩]
    else
      (if children.isEmpty then [⟨path, p, .emptyGroup⟩]
        else if properties.lacksName then [⟨path, p, .missingGroupName⟩]
        else violationsFrom limit path (depth + 1) 0 children) ++
      rangeViolations path p

/-- The violations of the trees that stand below `path`, the first of them as child number `index`. -/
def violationsFrom (limit : Nat) (path : List Nat) (depth index : Nat) : List Pattern → List Violation
  | [] => []
  | p :: ps => violationsAt limit (path ++ [index]) depth p ++ violationsFrom limit path depth (index + 1) ps
end

/-- The violations of a tree. -/
def violations (limit : Nat) (p : Pattern) : List Violation := violationsAt limit [] 1 p

end Pattern

namespace ViolationAux

open Pattern

/-! ## The checks of one node -/

/-- Two limits have a text unless the maximum is below the minimum. -/
theorem rangeText_cases (min max : UInt32) :
    (¬max < min ∧ ∃ text, Quantifier.rangeText (some min) (some max) = .ok text) ∨
      max < min ∧ Quantifier.rangeText (some min) (some max) = .error ⟨min, max⟩ := by
  by_cases h01 : min = 0 ∧ max = 1
  · refine Or.inl ⟨?_, "?", by simp only [Quantifier.rangeText, if_pos h01]⟩
    rw [h01.1, h01.2]
    decide
  · by_cases h : max < min
    · exact Or.inr ⟨h, by simp only [Quantifier.rangeText, if_neg h01, if_pos h]⟩
    · refine Or.inl ⟨h, ?_⟩
      simp only [Quantifier.rangeText, if_neg h01, if_neg h]
      exact ⟨_, rfl⟩

/-- The bounds of a quantifier have a text unless its range is inverted. -/
theorem bounds_cases (q : Quantifier) :
    (q.inverted? = none ∧ ∃ text, q.bounds = .ok text) ∨ ∃ range, q.inverted? = some range ∧ q.bounds = .error range := by
  obtain ⟨min, max, exactly, lazy, greedy⟩ := q
  by_cases hx : exactly.any (0 < ·) = true
  · obtain ⟨n, rfl, hn⟩ := (Option.any_eq_true _ _).1 hx
    have hn := of_decide_eq_true hn
    refine Or.inl ⟨?_, "\x7b" ++ Quantifier.numeral n ++ "\x7d", by simp only [Quantifier.bounds, if_pos hn]⟩
    unfold Quantifier.inverted?
    cases min <;> cases max <;> simp [hn]
  · have hb : Quantifier.bounds ⟨min, max, exactly, lazy, greedy⟩ = Quantifier.rangeText min max := by
      cases exactly with
      | none => rfl
      | some n => exact if_neg (by simpa using hx)
    rw [hb]
    simp only [Quantifier.inverted?, hx]
    cases min <;> cases max
    case some.some min max =>
      rcases rangeText_cases min max with ⟨h, text, ht⟩ | ⟨h, ht⟩
      · exact Or.inl ⟨by simp [h], text, ht⟩
      · exact Or.inr ⟨⟨min, max⟩, by simp [h], ht⟩
    all_goals exact Or.inl ⟨rfl, _, rfl⟩

/-- A fragment takes the suffix of a quantifier unless the range of it is inverted. -/
theorem quantified_cases (path : List Nat) (fragment : String) (p : Pattern) :
    (rangeViolations path p = [] ∧ ∃ regex, quantified fragment p.quantifier = .ok regex) ∨
      ∃ cause, rangeViolations path p = [⟨path, p, cause⟩] ∧ quantified fragment p.quantifier = .error cause := by
  unfold rangeViolations quantified
  cases p.quantifier with
  | none => exact Or.inl ⟨rfl, fragment, rfl⟩
  | some q =>
    rcases bounds_cases q with ⟨hq, text, hb⟩ | ⟨range, hq, hb⟩
    · simp only [Option.bind_some, hq, Quantifier.suffix, hb]
      exact Or.inl ⟨trivial, _, rfl⟩
    · simp only [Option.bind_some, hq, Quantifier.suffix, hb]
      exact Or.inr ⟨_, rfl, rfl⟩

/-- A group has an opening unless it lacks a name. -/
theorem opening?_cases (p : Properties) :
    (p.lacksName = true ∧ p.opening? = none) ∨ (p.lacksName = false ∧ ∃ opening, p.opening? = some opening) := by
  obtain ⟨name, capture, style⟩ := p
  cases capture with
  | nonCapturing => exact Or.inr ⟨rfl, _, rfl⟩
  | capturing => exact Or.inr ⟨rfl, _, rfl⟩
  | namedCapturing =>
    cases name with
    | none => exact Or.inl ⟨rfl, rfl⟩
    | some name =>
      simp only [Properties.lacksName, Properties.opening?, Properties.groupName?]
      cases hb : Text.isBlankText name with
      | true => exact Or.inl ⟨by simp [hb], by simp [hb]⟩
      | false => exact Or.inr ⟨by simp [hb], style.opening name, by simp [Option.filter, hb]⟩

/-! ## The walk -/

/-- An outcome agrees with the violations below `path`: it is a regex where there are none, and otherwise the failure of the
first one, located at a node that `find` finds by the rest of its path. -/
inductive Reports (find : List Nat → Option Pattern) (path : List Nat) : List Violation → Except Error String → Prop where
  | regex (regex : String) : Reports find path [] (.ok regex)
  | failure {below : List Nat} {node : Pattern} (cause : Cause) (rest : List Violation) :
      find below = some node →
        Reports find path (⟨path ++ below, node, cause⟩ :: rest) (.error (cause.at (node.location (path ++ below))))

/-- The violations of a first step come before those of a second one, which is taken only after a success. -/
theorem Reports.bind {find : List Nat → Option Pattern} {path : List Nat} {vs ws : List Violation}
    {first : Except Error String} {second : String → Except Error String} (h : Reports find path vs first)
    (hs : ∀ regex, Reports find path ws (second regex)) : Reports find path (vs ++ ws) (first >>= second) := by
  cases h with
  | regex regex => exact hs regex
  | failure cause rest hf => exact Reports.failure cause (rest ++ ws) hf

/-- What a child reports, its parent reports. -/
theorem Reports.ofChild {find inner : List Nat → Option Pattern} {path : List Nat} {i : Nat} {vs : List Violation}
    {outcome : Except Error String} (h : Reports inner (path ++ [i]) vs outcome)
    (hf : ∀ below, find (i :: below) = inner below) : Reports find path vs outcome := by
  cases h with
  | regex regex => exact Reports.regex regex
  | failure cause rest hi =>
    rw [List.append_assoc, List.singleton_append]
    exact Reports.failure cause rest ((hf _).trans hi)

/-- A located failure keeps its location. -/
theorem Reports.locate {find : List Nat → Option Pattern} {path : List Nat} {vs : List Violation}
    {outcome : Except Error String} (h : Reports find path vs outcome) (l : Location) :
    Reports find path vs (Error.locate l outcome) := by
  cases h with
  | regex regex => exact Reports.regex regex
  | failure cause rest hf => exact Reports.failure cause rest hf

/-- A failure that arises at the root of a tree, before anything else is looked at. -/
theorem Reports.atRoot (p : Pattern) (path : List Nat) (cause : Cause) (rest : List Violation) :
    Reports (at? · p) path (⟨path, p, cause⟩ :: rest) (Error.locate (p.location path) (.error cause.unlocated)) := by
  have h : Reports (at? · p) path (⟨path ++ [], p, cause⟩ :: rest) (.error (cause.at (p.location (path ++ [])))) :=
    Reports.failure cause rest rfl
  rwa [List.append_nil] at h

/-- The quantifier of a node reports its range at the node. -/
theorem quantified_reports (path : List Nat) (fragment : String) (p : Pattern) :
    Reports (at? · p) path (rangeViolations path p)
      (Error.locate (p.location path) ((quantified fragment p.quantifier).mapError Cause.unlocated)) := by
  rcases quantified_cases path fragment p with ⟨hv, regex, hq⟩ | ⟨cause, hv, hq⟩
  · rw [hv, hq]
    exact Reports.regex regex
  · rw [hv, hq]
    exact Reports.atRoot p path cause []

mutual
/-- Compiling a tree reports its first violation, wherever the tree stands. -/
theorem compileAt_reports (limit : Nat) (path : List Nat) (depth : Nat) : (p : Pattern) → p.Resolved →
    Reports (at? · p) path (violationsAt limit path depth p) (p.compileAt limit path depth)
  | leaf notes kind value, h => by
    rw [violationsAt, compileAt]
    by_cases hd : limit < depth
    · rw [if_pos hd, if_pos hd]
      exact Reports.atRoot _ path _ []
    · obtain ⟨token, -, ht⟩ := LeafKind.token_of_isSome h
      rw [if_neg hd, if_neg hd, leafFragment, ht]
      exact quantified_reports path token (leaf notes kind value)
  | group notes properties children, h => by
    rw [violationsAt, compileAt]
    by_cases hd : limit < depth
    · rw [if_pos hd, if_pos hd]
      exact Reports.atRoot _ path _ []
    · rw [if_neg hd, if_neg hd]
      by_cases he : children.isEmpty
      · rw [if_pos he, if_pos he]
        exact Reports.atRoot _ path _ _
      · rw [if_neg he, if_neg he]
        rcases opening?_cases properties with ⟨hn, ho⟩ | ⟨hn, opening, ho⟩
        · rw [if_pos hn, ho]
          exact Reports.atRoot _ path _ _
        · rw [if_neg (Bool.eq_false_iff.1 hn), ho, Error.locate_bind]
          -- A failure of a child has a location by now; only that of the quantifier is located here.
          have hc := compileFrom_reports limit path (depth + 1) (group notes properties children) [] children rfl h
          exact (hc.locate _).bind fun body =>
            quantified_reports path (opening ++ body ++ ")") (group notes properties children)

/-- Compiling the later children of a node reports the first violation of theirs. -/
theorem compileFrom_reports (limit : Nat) (path : List Nat) (depth : Nat) (parent : Pattern) :
    (before ps : List Pattern) → parent.children = before ++ ps → ResolvedAll ps →
      Reports (at? · parent) path (violationsFrom limit path depth before.length ps)
        (compileFrom limit path depth before.length ps)
  | before, [], _, _ => Reports.regex ""
  | before, p :: ps, hc, h => by
    have hp : ∀ below, at? (before.length :: below) parent = at? below p := by
      intro below
      rw [at?, hc, List.getElem?_append_right (Nat.le_refl _), Nat.sub_self]
      rfl
    have hs := compileFrom_reports limit path depth parent (before ++ [p]) ps (by rw [hc, List.append_assoc]; rfl) h.2
    rw [List.length_append] at hs
    refine ((compileAt_reports limit (path ++ [before.length]) depth p h.1).ofChild hp).bind fun fragment => ?_
    have hr : ∀ rest : String, Reports (at? · parent) path [] (pure (fragment ++ rest)) := fun rest => Reports.regex _
    rw [← List.append_nil (violationsFrom ..)]
    exact hs.bind hr
end

end ViolationAux

namespace Pattern

/-- A tree that the constructors build compiles when it has no violations. Otherwise compilation fails with the cause of the
first one; the location leads from the root to the node of that violation and has its type and its identifier. -/
theorem compile_reports_first_violation (limit : Nat) (p : Pattern) (h : p.Resolved) :
    ((∃ regex, p.compile limit = .ok regex) ↔ p.violations limit = []) ∧
      ∀ v rest, p.violations limit = v :: rest →
        p.at? v.path = some v.node ∧
          p.compile limit =
            .error { cause := v.cause, location := some { path := v.path, type := some v.node.type, id := v.node.id } } := by
  have hr := ViolationAux.compileAt_reports limit [] 1 p h
  simp only [compile, violations]
  generalize violationsAt limit [] 1 p = vs, p.compileAt limit [] 1 = outcome at hr ⊢
  cases hr with
  | regex regex => exact ⟨⟨fun _ => rfl, fun _ => ⟨regex, rfl⟩⟩, fun _ _ hv => nomatch hv⟩
  | failure cause rest hf =>
    refine ⟨⟨fun hc => ?_, fun hv => ?_⟩, fun v others hv => ?_⟩
    · obtain ⟨regex, hc⟩ := hc
      cases hc
    · cases hv
    · obtain ⟨rfl, rfl⟩ := List.cons.inj hv
      exact ⟨hf, rfl⟩

/-- Three violations: the range of a leaf comes before an empty group to its right and before the range of the root. A range
under a positive exact count is none. -/
theorem compile_reports_first_violation_of_three :
    let leaf : Pattern := .leaf { id := some "x", quantifier := some (.between 5 2) } .anchor (.literal "StartOfLine")
    let p : Pattern := .group { quantifier := some (.between 1 0) } {}
      [.leaf { quantifier := some { min := some 5, max := some 2, exactly := some 3 } } .literal (.literal "a"),
        .group {} .capturing [leaf], .group {} (.named " " .pStyle) []]
    p.Resolved ∧
      p.violations 3 =
        [⟨[1, 0], leaf, .invalidRange 5 2⟩, ⟨[2], .group {} (.named " " .pStyle) [], .emptyGroup⟩, ⟨[], p, .invalidRange 1 0⟩] ∧
      p.at? [1, 0] = some leaf ∧
      p.compile 3 =
        .error { cause := .invalidRange 5 2, location := some { path := [1, 0], type := some .anchor, id := some "x" } } := by
  intro leaf p
  have hp : p.Resolved := ⟨rfl, ⟨show (Anchor.tokenOf? "StartOfLine").isSome by decide, trivial⟩, trivial, trivial⟩
  have hv : p.violations 3 =
      [⟨[1, 0], leaf, .invalidRange 5 2⟩, ⟨[2], .group {} (.named " " .pStyle) [], .emptyGroup⟩, ⟨[], p, .invalidRange 1 0⟩] :=
    rfl
  exact ⟨hp, hv, (compile_reports_first_violation 3 p hp).2 _ _ hv⟩

end Pattern

end RegexTree

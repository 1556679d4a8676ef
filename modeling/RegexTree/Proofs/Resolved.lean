import RegexTree.Build

/-!
# Trees that the constructors build

The constructors and the edits of `RegexTree.Build` are the only way to a tree. What they build are the resolved trees
(`built_iff_resolved`), so a statement about resolved trees is a statement about every tree they build.
-/

namespace RegexTree

/-! ## Tokens and names -/

/-- The check of a leaf gives the token a text stands for, and fails where there is none. -/
theorem LeafKind.token_cases (kind : LeafKind) (text : String) :
    (∃ token, kind.tokenOf? text = some token ∧ kind.token text = .ok token) ∨
      kind.tokenOf? text = none ∧ ∃ cause, kind.token text = .error cause := by
  cases kind with
  | literal => exact Or.inl ⟨text, rfl, rfl⟩
  | anchor =>
    simp only [LeafKind.tokenOf?, LeafKind.token]
    cases Anchor.tokenOf? text with
    | none => exact Or.inr ⟨rfl, _, rfl⟩
    | some token => exact Or.inl ⟨token, rfl, rfl⟩
  | characterClass =>
    simp only [LeafKind.tokenOf?, LeafKind.token]
    cases CharacterClass.tokenOf? text with
    | none => exact Or.inr ⟨rfl, _, rfl⟩
    | some token => exact Or.inl ⟨token, rfl, rfl⟩

/-- A text that stands for a token passes the check of a leaf. -/
theorem LeafKind.token_of_isSome {kind : LeafKind} {text : String} (h : (kind.tokenOf? text).isSome) :
    ∃ token, kind.tokenOf? text = some token ∧ kind.token text = .ok token := by
  rcases kind.token_cases text with ht | ⟨ht, -⟩
  · exact ht
  · rw [ht] at h
    cases h

/-- Only a text that stands for a token passes the check of a leaf. -/
theorem LeafKind.isSome_of_token {kind : LeafKind} {text token : String} (h : kind.token text = .ok token) :
    (kind.tokenOf? text).isSome := by
  rcases kind.token_cases text with ⟨token, ht, -⟩ | ⟨-, cause, hc⟩
  · rw [ht]
    rfl
  · rw [hc] at h
    cases h

/-- The kind of leaf a kind of node is. -/
theorem LeafKind.leafKind?_toNodeType (kind : LeafKind) : kind.toNodeType.leafKind? = some kind := by
  cases kind <;> rfl

/-- A kind of node is found by its name. -/
theorem NodeType.ofName?_name (type : NodeType) : NodeType.ofName? type.name = some type := by
  cases type <;> decide

/-! ## Building -/

namespace Pattern

/-- A tree that the constructors build, or an edit of such a tree. -/
inductive Built : Pattern → Prop where
  | ofValue {type : NodeType} {value : Value} {p : Pattern} : ofValue type value = .ok p → Built p
  | grouping (properties : Properties) {children : List Pattern} :
      (∀ c ∈ children, Built c) → Built (grouping properties children)
  | withId (id : String) {p : Pattern} : Built p → Built (p.withId id)
  | withMessage (message : String) {p : Pattern} : Built p → Built (p.withMessage message)
  | withQuantifier (quantifier : Option Quantifier) {p : Pattern} : Built p → Built (p.withQuantifier quantifier)
  | withValue (value : Value) {p q : Pattern} : Built p → p.withValue value = .ok q → Built q
  | withChildren {children : List Pattern} {p q : Pattern} :
      Built p → (∀ c ∈ children, Built c) → p.withChildren? children = some q → Built q

/-- A list of trees is resolved when each of them is. -/
theorem resolvedAll_iff (ps : List Pattern) : ResolvedAll ps ↔ ∀ p ∈ ps, p.Resolved := by
  induction ps with
  | nil => simp [ResolvedAll]
  | cons p ps ih => simp [ResolvedAll, ih]

/-- The notes of the root have no part in being resolved. -/
theorem resolved_withNotes (notes : Notes) (p : Pattern) : (p.withNotes notes).Resolved ↔ p.Resolved := by
  cases p <;> simp [withNotes, Resolved]

/-- A checked leaf is the leaf asked for, and it is resolved. -/
theorem resolved_of_checkedLeaf {notes : Notes} {kind : LeafKind} {value : Value} {p : Pattern}
    (h : checkedLeaf notes kind value = .ok p) : p = leaf notes kind value ∧ p.Resolved := by
  unfold checkedLeaf at h
  cases ht : kind.token value.resolve with
  | error cause => rw [ht] at h; cases h
  | ok token =>
    rw [ht] at h
    obtain rfl : leaf notes kind value = p := Except.ok.inj h
    exact ⟨rfl, LeafKind.isSome_of_token ht⟩

/-- A resolved leaf passes the check. -/
theorem checkedLeaf_of_isSome (notes : Notes) {kind : LeafKind} {value : Value}
    (h : (kind.tokenOf? value.resolve).isSome) : checkedLeaf notes kind value = .ok (leaf notes kind value) := by
  obtain ⟨token, -, ht⟩ := LeafKind.token_of_isSome h
  simp only [checkedLeaf, ht]
  rfl

/-- What is built is resolved. -/
theorem Built.resolved {p : Pattern} (h : Built p) : p.Resolved := by
  induction h with
  | @ofValue type value p hp =>
    unfold Pattern.ofValue at hp
    split at hp
    · exact (resolved_of_checkedLeaf hp).2
    · cases hp
  | grouping properties _ ih => exact (resolvedAll_iff _).2 ih
  | withId id _ ih => exact (resolved_withNotes _ _).2 ih
  | withMessage message _ ih => exact (resolved_withNotes _ _).2 ih
  | withQuantifier quantifier _ ih => exact (resolved_withNotes _ _).2 ih
  | @withValue value p q _ hq _ =>
    cases p with
    | leaf notes kind old => exact (resolved_of_checkedLeaf hq).2
    | group notes properties children => cases hq
  | @withChildren children p q _ _ hq _ ihc =>
    cases p with
    | leaf notes kind value => cases hq
    | group notes properties old =>
      cases hq
      exact (resolvedAll_iff _).2 ihc

/-- Notes are added to a tree without notes one after another. -/
theorem Built.withNotes {p : Pattern} (h : Built p) (hp : p.notes = {}) (notes : Notes) : Built (p.withNotes notes) := by
  obtain ⟨id, message, quantifier⟩ := notes
  have hq := h.withQuantifier quantifier
  cases p <;> cases hp <;> cases id <;> cases message
  all_goals first
    | exact hq
    | exact hq.withId _
    | exact hq.withMessage _
    | exact (hq.withMessage _).withId _

mutual
/-- Every resolved tree is built by some constructors. -/
theorem built_of_resolved : (p : Pattern) → p.Resolved → Built p
  | leaf notes kind value, h => by
    have hp : Pattern.ofValue kind.toNodeType value = .ok (leaf {} kind value) := by
      simp only [Pattern.ofValue, LeafKind.leafKind?_toNodeType]
      exact checkedLeaf_of_isSome {} h
    exact (Built.ofValue hp).withNotes rfl notes
  | group notes properties children, h => (Built.grouping properties (built_of_resolvedAll children h)).withNotes rfl notes

/-- Every tree of a resolved list is built by some constructors. -/
theorem built_of_resolvedAll : (ps : List Pattern) → ResolvedAll ps → ∀ p ∈ ps, Built p
  | [], _ => by simp
  | q :: qs, h => by
    intro p hp
    rcases List.mem_cons.1 hp with hpq | hp
    · rw [hpq]
      exact built_of_resolved q h.1
    · exact built_of_resolvedAll qs h.2 p hp
end

/-- The trees that the constructors build are the resolved ones. -/
theorem built_iff_resolved (p : Pattern) : Built p ↔ p.Resolved :=
  ⟨Built.resolved, built_of_resolved p⟩

end Pattern

end RegexTree
